/-!
# Modes

What an operator is doing at the desk, and the small choices that go with it: which way to
turn, and which preview is staged.

    a turn stays in the circle                                  (around_lt)
-/

namespace LightingDesk

/-- What the operator is doing. -/
inductive Mode
  | chase
  | idle
  | lights
  | staging
  | wheel
  | manual
  | preset
  | party
  | scary
deriving DecidableEq, Repr

/-- The byte that tells the controller the mode. -/
def Mode.code : Mode → UInt8
  | chase => 0
  | idle => 1
  | lights => 2
  | staging => 3
  | wheel => 4
  | manual => 5
  | preset => 6
  | party => 7
  | scary => 8

/-- One step one way or the other. -/
inductive Turn
  | ahead
  | back
deriving DecidableEq, Repr

namespace Turn

/-- The place next to `i` among `n` places that stand in a circle. -/
def around (n i : Nat) : Turn → Nat
  | ahead => (i + 1) % n
  | back => (i + n - 1) % n

theorem around_lt {n : Nat} (h : 0 < n) (i : Nat) (t : Turn) : t.around n i < n := by
  cases t <;> exact Nat.mod_lt _ h

end Turn

/-- The preview that runs while staging, and what committing it leads to. -/
inductive Staged
  | rawDmx
  | rainbow
  | preset
deriving DecidableEq, Repr

namespace Staged

/-- The name of the choice in reports. -/
def text : Staged → String
  | rawDmx => "RawDmx"
  | rainbow => "Rainbow"
  | preset => "Preset"

/-- The number of the choice in reports. -/
def number : Staged → Int
  | rawDmx => -1
  | rainbow => 0
  | preset => 1

/-- The choice next to another; raw editing is left out where it is not possible. -/
def around (s : Staged) (canEditRaw : Bool) (turn : Turn) : Staged :=
  match turn, s with
  | .ahead, .rawDmx => rainbow
  | .ahead, .rainbow => preset
  | .ahead, .preset => if canEditRaw then rawDmx else rainbow
  | .back, .preset => rainbow
  | .back, .rainbow => if canEditRaw then rawDmx else preset
  | .back, .rawDmx => preset

end Staged

end LightingDesk
