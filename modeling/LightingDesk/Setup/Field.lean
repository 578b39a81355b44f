import LightingDesk.Number.Read
import LightingDesk.Number.Shortest
import LightingDesk.Setup.Value
import LightingDesk.Text.Fold

/-!
# Fields

What a setting may be written as.  A count can also be a truth value, a text, or a number with a
fraction, which is rounded; a text can also be a truth value or a number.  A setting that is
null has not been made.
-/

namespace LightingDesk.Field

/-- The number that a text stands for. -/
def countOfText? (s : String) : Option Nat :=
  match Text.lower s with
  | "true" => some 1
  | "on" => some 1
  | "yes" => some 1
  | "false" => some 0
  | "off" => some 0
  | "no" => some 0
  | _ => Number.nat64? s.toList

/-- A number that is not below zero. -/
def count? : Value → Option Nat
  | .int n => if 0 ≤ n then some n.toNat else none
  | .real x => some x.roundNat
  | .bool b => some b.toNat
  | .text s => countOfText? s
  | _ => none

/-- A number from zero to a bound. -/
def countUpTo (bound : Nat) (v : Value) : Option Nat := (count? v).filter (· ≤ bound)

/-- A text. -/
def text? : Value → Option String
  | .text s => some s
  | .bool b => some (if b then "true" else "false")
  | .int n => some (toString n)
  | .real x => some x.text
  | _ => none

/-- A list of texts. -/
def texts? : Value → Option (List String)
  | .list items => items.mapM text?
  | _ => none

/-- A setting that need not be made. -/
def optional {α : Type} (read : Value → Option α) : Option Value → Option (Option α)
  | none => some none
  | some .null => some none
  | some v => (read v).map some

end LightingDesk.Field
