import LightingDesk.Color.Rgb
import LightingDesk.Dmx.Sink
import LightingDesk.Rig.Fixture

/-!
# Gestures

What can be asked of a fixture: to show given levels, a color, a dimmer level.  A gesture
is a job for the sink; a fixture that lacks the channels for it gets the empty job.
-/

namespace LightingDesk

/-- Cuts levels for consecutive channels into runs that a sink takes. -/
def runs (address : Nat) : List UInt8 → Job
  | [] => []
  | v :: rest =>
    .run address (v :: rest.take (maxRun - 1)) ::
      runs (address + maxRun) (rest.drop (maxRun - 1))
termination_by vs => vs.length
decreasing_by simp only [List.length_cons, List.length_drop]; omega

namespace Fixture

/-- Shows the given levels from the fixture's first channel on; levels that it has no channel for
are left out. -/
def setValues (f : Fixture) (values : List UInt8) : Job := runs f.address (values.take f.count)

/-- Gives one channel a level, unless the fixture ends before it. -/
def setChannel (f : Fixture) (offset : Nat) (value : UInt8) : Job :=
  if offset < f.count then [.run (f.address + offset) [value]] else []

/-- Gives the dimmer a level. -/
def setDimmer (f : Fixture) (value : UInt8) : Job :=
  match f.offset "dimmer" with
  | some i => f.setChannel i value
  | none => []

/-- Where red, green and blue are, for a fixture that has all three. -/
def rgb (f : Fixture) : Option (Nat × Nat × Nat) :=
  match f.offset "red", f.offset "green", f.offset "blue" with
  | some r, some g, some b => some (r, g, b)
  | _, _, _ => none

/-- Shows a color: in one run where the three channels stand side by side in this order, and else
channel by channel. -/
def setColor (f : Fixture) (color : Color) : Job :=
  match f.rgb with
  | none => []
  | some (r, g, b) =>
    if g = r + 1 ∧ b = r + 2 then
      [.run (f.address + r) [color.red, color.green, color.blue]]
    else f.setChannel r color.red ++ f.setChannel g color.green ++ f.setChannel b color.blue

/-- Drives the white channel; a fixture without one shows the color white. -/
def setWhite (f : Fixture) (value : UInt8) : Job :=
  match f.offset "white" with
  | some i => f.setChannel i value
  | none => f.setColor Color.white

/-- Puts all of the fixture's channels to zero. -/
def clear (f : Fixture) : Job := f.setValues (List.replicate f.count 0)

end Fixture

end LightingDesk
