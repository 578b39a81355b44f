/-!
# Authors

Every write has an author: the desk itself, or the one effect that is playing.
-/

namespace LightingDesk

/-- The animations a desk can play. -/
inductive EffectName
  | highlight
  | presetCycle
  | rainbowCycle
  | rawPulse
  | sceneChase
deriving DecidableEq, Repr

/-- The name an effect goes by in reports. -/
def EffectName.text : EffectName → String
  | highlight => "highlight"
  | presetCycle => "preset-cycle"
  | rainbowCycle => "rainbow-cycle"
  | rawPulse => "raw-dmx-pulse"
  | sceneChase => "scene-chase"

/-- Who made a write. -/
inductive Author
  | desk
  | effect (name : EffectName)
deriving DecidableEq, Repr

end LightingDesk
