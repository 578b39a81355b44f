import LightingDesk.Clock.Span

/-!
# Pacers

A pacer decides when something that repeats is due: one interval after it was last done.
The interval belongs to the thing that repeats and may change; a pacer only remembers the
last time.  Waiting does everything that falls due up to and including the end of the wait.
-/

namespace LightingDesk

/-- When something that repeats was last done. -/
structure Pacer where
  last : Nat
deriving DecidableEq, Repr

namespace Pacer

/-- Whether the next time has come by `now`. -/
def isDue (p : Pacer) (interval now : Nat) : Bool := p.last + interval ≤ now

/-- How often the thing falls due up to and including the instant `stop`.  An interval of zero is
none: what would repeat without a pause has no number of times, and is never due by waiting. -/
def due (p : Pacer) (interval stop : Nat) : Nat := (stop - p.last) / interval

/-- The instants at which it falls due. -/
def instants (p : Pacer) (interval stop : Nat) : List Nat :=
  (List.range (p.due interval stop)).map fun k => p.last + (k + 1) * interval

/-- The pacer after everything due up to `stop` has been done. -/
def advance (p : Pacer) (interval stop : Nat) : Pacer :=
  ⟨p.last + p.due interval stop * interval⟩

end Pacer

end LightingDesk
