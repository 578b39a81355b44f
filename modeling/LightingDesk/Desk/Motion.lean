/-!
# Motion

In the two show modes the dimmer level follows how hard the controller is shaken.  A table
gives a level for each magnitude that has been exceeded; the highest of them counts.
-/

namespace LightingDesk

/-- Levels for magnitudes above a threshold, lowest threshold first, and the level at rest. -/
structure MotionTable where
  rest : UInt8
  steps : List (Nat × UInt8)

namespace MotionTable

/-- The level for a magnitude. -/
def level (t : MotionTable) (magnitude : Nat) : UInt8 :=
  match t.steps.reverse.find? fun step => step.1 < magnitude with
  | some step => step.2
  | none => t.rest

/-- Shaking brightens the lights. -/
def party : MotionTable :=
  ⟨0, [(300, 10), (350, 30), (400, 45), (600, 90), (670, 100), (900, 120), (950, 175), (1000, 200),
    (1100, 225), (1400, 240), (1700, 250), (2000, 255)]⟩

/-- Holding still keeps the lights up, and any movement sends them toward black. -/
def scary : MotionTable :=
  ⟨247, [(300, 230), (320, 220), (340, 200), (360, 170), (370, 130), (390, 110), (410, 100),
    (420, 70), (450, 50), (460, 33), (465, 20), (477, 3)]⟩

end MotionTable

end LightingDesk
