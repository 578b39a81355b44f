import LightingDesk.Desk.Mode
import LightingDesk.Remote.Action

/-!
# Moves

What an action of the controller means depends on the mode.  A pair of a mode and an action
that has no meaning is no move.
-/

namespace LightingDesk

/-- The two modes in which the lights follow the controller's motion. -/
inductive MotionShow
  | party
  | scary
deriving DecidableEq, Repr

/-- The mode of such a show. -/
def MotionShow.mode : MotionShow → Mode
  | party => .party
  | scary => .scary

/-- What an operator can ask of the desk. -/
inductive Move
  | scene (turn : Turn)
  | liveScene
  | saveScene
  | deleteScene
  | enterLights
  | startChase
  | enterShow (chosen : MotionShow)
  | cursor (turn : Turn)
  | toggle
  | clearSelection
  | commitSelection
  | leaveLights
  | restage (turn : Turn)
  | commitStaged
  | backToLights
  | keepEdit
  | dropEdit
  | channel (turn : Turn)
  | raise
  | lower
  | blackOut
  | preset (turn : Turn)
  | slower
  | faster
  | stopChase
  | leaveShow
deriving DecidableEq, Repr

/-- The move that an action stands for in a mode. -/
def Move.of? : Mode → Action → Option Move
  | .idle, .left => some (.scene .back)
  | .idle, .right => some (.scene .ahead)
  | .idle, .down => some .liveScene
  | .idle, .b1 => some .enterLights
  | .idle, .b2 => some .startChase
  | .idle, .ps2 => some .saveScene
  | .idle, .ps2Long => some .deleteScene
  | .idle, .konami => some (.enterShow .party)
  | .idle, .reverseKonami => some (.enterShow .scary)
  | .lights, .left => some (.cursor .back)
  | .lights, .right => some (.cursor .ahead)
  | .lights, .ps2 => some .toggle
  | .lights, .ps2Long => some .clearSelection
  | .lights, .b1 => some .commitSelection
  | .lights, .b2 => some .leaveLights
  | .staging, .left => some (.restage .back)
  | .staging, .right => some (.restage .ahead)
  | .staging, .b1 => some .commitStaged
  | .staging, .b2 => some .backToLights
  | .wheel, .b1 => some .keepEdit
  | .wheel, .b2 => some .dropEdit
  | .manual, .b1 => some .keepEdit
  | .manual, .b2 => some .dropEdit
  | .manual, .left => some (.channel .back)
  | .manual, .right => some (.channel .ahead)
  | .manual, .up => some .raise
  | .manual, .down => some .lower
  | .manual, .ps2 => some .blackOut
  | .preset, .b1 => some .keepEdit
  | .preset, .b2 => some .dropEdit
  | .preset, .left => some (.preset .back)
  | .preset, .right => some (.preset .ahead)
  | .chase, .up => some .slower
  | .chase, .right => some .slower
  | .chase, .down => some .faster
  | .chase, .left => some .faster
  | .chase, .b2 => some .stopChase
  | .party, .ps2Long => some .leaveShow
  | .scary, .ps2Long => some .leaveShow
  | _, _ => none

/-- Whether a move first stops the effect that is playing. -/
def Move.stopsEffect : Move → Bool
  | commitSelection | leaveLights | restage _ | commitStaged | backToLights | keepEdit | dropEdit
  | enterLights | startChase | stopChase => true
  | _ => false

end LightingDesk
