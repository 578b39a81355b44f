/-!
# The dimmer wave

A pulsing light goes down and up between a high and a low dimmer level in equal steps.  A
fresh wave stands at the top and heads down.
-/

namespace LightingDesk

/-- A bounce between two levels: where it is and which way it goes. -/
structure Wave where
  height : Nat
  rising : Bool
deriving DecidableEq, Repr

namespace Wave

/-- How far one step goes. -/
def stride : Nat := 5

/-- The highest level. -/
def high : Nat := 255

/-- The lowest level. -/
def low : Nat := 25

/-- A wave at the top, about to go down. -/
def fresh : Wave := ⟨high, false⟩

/-- One step; at either end the wave turns round. -/
def advance (w : Wave) : Wave :=
  let next := if w.rising then w.height + stride else w.height - stride
  if next ≤ low then ⟨low, true⟩
  else if high ≤ next then ⟨high, false⟩
  else ⟨next, w.rising⟩

/-- The dimmer level that the wave stands for. -/
def level (w : Wave) : UInt8 := w.height.toUInt8

end Wave

end LightingDesk
