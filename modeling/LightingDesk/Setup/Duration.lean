import LightingDesk.Clock.Span
import LightingDesk.Number.Binary64
import LightingDesk.Text.Blank
import LightingDesk.Text.Numeric

/-!
# Durations

A duration is written as numbers with units, such as `1h 30m`, in any order and with blanks
anywhere; what it says is the sum.  A part is a run of numeric characters and the run of others
behind it, so that the number of the first part may be missing.  The first part that cannot be
read decides what is wrong.

    the parts together are the text                             (parts_flatten)
-/

namespace LightingDesk

/-- What is wrong with a duration. -/
inductive DurationFault
  | noNumber
  | badDigit
  | numberTooLarge
  | badUnit
  | tooLong
deriving DecidableEq, Repr

namespace DurationFault

/-- The text shown for a duration that is refused. -/
def message : DurationFault → String
  | noNumber => "cannot parse integer from empty string"
  | badDigit => "invalid digit found in string"
  | numberTooLarge => "number too large to fit in target type"
  | badUnit =>
    "missing time duration format, must be multiples of \x60[0-9]+(ns|us|ms|[smhdwy])\x60"
  | tooLong => "number is too large to fit in target type"

end DurationFault

namespace Duration

/-- A number and its unit. -/
structure Part where
  number : List Char
  unit : List Char
deriving DecidableEq, Repr

/-- Splits a text into its parts; an empty text is one empty part. -/
def parts : List Char → List Part
  | [] => [⟨[], []⟩]
  | c :: rest =>
    match parts rest with
    | [] => []
    | p :: more =>
      if Text.isNumeric c then ⟨c :: p.number, p.unit⟩ :: more
      else if p.number.isEmpty then ⟨[], c :: p.unit⟩ :: more
      else ⟨[], [c]⟩ :: p :: more

theorem parts_ne_nil (cs : List Char) : parts cs ≠ [] := by
  induction cs with
  | nil => simp [parts]
  | cons c rest ih =>
    unfold parts
    split
    · contradiction
    · split
      · simp
      · split <;> simp

theorem parts_flatten (cs : List Char) :
    (parts cs).flatMap (fun p => p.number ++ p.unit) = cs := by
  induction cs with
  | nil => rfl
  | cons c rest ih =>
    unfold parts
    split
    · exact absurd ‹_› (parts_ne_nil rest)
    · rename_i p more he
      rw [he] at ih
      split
      · simpa using ih
      · split
        · rename_i hp
          rw [List.isEmpty_iff] at hp
          simpa [hp] using ih
        · simpa using ih

/-- The value of decimal digits behind those that are worth `n`. -/
def countFrom (n : Nat) : List Char → Except DurationFault Nat
  | [] => .ok n
  | c :: rest =>
    if '0' ≤ c ∧ c ≤ '9' then
      let n := 10 * n + (c.toNat - '0'.toNat)
      if n ≤ Binary64.greatest then countFrom n rest else .error .numberTooLarge
    else .error .badDigit

/-- The value of decimal digits. -/
def count (cs : List Char) : Except DurationFault Nat :=
  if cs.isEmpty then .error .noNumber else countFrom 0 cs

/-- How long a unit is. -/
def unit? (cs : List Char) : Option Nat :=
  match String.ofList cs with
  | "ns" => some 1
  | "us" => some 1000
  | "ms" => some (Span.ofMillis 1)
  | "s" => some (Span.ofSeconds 1)
  | "m" => some (Span.ofSeconds 60)
  | "h" => some (Span.ofSeconds 3600)
  | "d" => some (Span.ofSeconds 86400)
  | "w" => some (Span.ofSeconds 604800)
  | "y" => some (Span.ofSeconds 31556926)
  | _ => none

/-- A span with a part added to it. -/
def add (total : Nat) (p : Part) : Except DurationFault Nat := do
  let n ← count p.number
  match unit? p.unit with
  | none => .error .badUnit
  | some size =>
    let total := total + n * size
    if Span.seconds total ≤ Binary64.greatest then .ok total else .error .tooLong

/-- The span that a text says. -/
def read (s : String) : Except DurationFault Nat :=
  (parts (Text.dropBlanks s).toList).foldlM add 0

end Duration

end LightingDesk
