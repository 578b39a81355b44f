import LightingDesk.Number.Binary64

/-!
# Numbers as text

Whole numbers are a sign, if any, and digits.  Other numbers may also have a point with
digits before or after it, and an exponent; or they are an infinity or no number, by name.
-/

namespace LightingDesk.Number

/-- The value of digits, if all of them are decimal digits and there is at least one. -/
def digits? (base : Nat) (cs : List Char) : Option Nat :=
  let value (c : Char) : Option Nat :=
    let v :=
      if '0' ≤ c ∧ c ≤ '9' then some (c.toNat - 48)
      else if 'a' ≤ c ∧ c ≤ 'f' then some (c.toNat - 87)
      else if 'A' ≤ c ∧ c ≤ 'F' then some (c.toNat - 55)
      else none
    v.filter (· < base)
  if cs.isEmpty then none
  else cs.foldlM (fun n c => (value c).map (n * base + ·)) 0

/-- A sign, if any, and what follows it. -/
def sign : List Char → Bool × List Char
  | '-' :: rest => (true, rest)
  | '+' :: rest => (false, rest)
  | cs => (false, cs)

/-- The whole number that a text stands for in a base. -/
def int? (base : Nat) (cs : List Char) : Option Int :=
  let (negative, rest) := sign cs
  (digits? base rest).map fun n => if negative then -(n : Int) else n

/-- A whole number, unless it is out of bounds. -/
def within (low high : Int) (n : Int) : Option Int := if low ≤ n ∧ n ≤ high then some n else none

/-- A whole number of 64 bits with a sign. -/
def int64? (base : Nat) (cs : List Char) : Option Int :=
  (int? base cs).bind (within (-9223372036854775808) 9223372036854775807)

/-- A whole number of 64 bits without a sign; a plus may stand in front. -/
def nat64? (cs : List Char) : Option Nat :=
  let body := match cs with
    | '+' :: rest => rest
    | cs => cs
  (digits? 10 body).filter (· ≤ Binary64.greatest)

/-- Whether a character is a decimal digit. -/
def isDigit (c : Char) : Bool := '0' ≤ c ∧ c ≤ '9'

/-- The exponent at the end of a number: nothing, or a letter and a whole number. -/
def exponent? : List Char → Option Int
  | [] => some 0
  | c :: rest => if c = 'e' ∨ c = 'E' then int? 10 rest else none

/-- A number with digits before or after a point, and an exponent. -/
def decimal? (negative : Bool) (cs : List Char) : Option Binary64 :=
  let whole := cs.takeWhile isDigit
  let rest := cs.dropWhile isDigit
  let (part, rest) := match rest with
    | '.' :: more => (more.takeWhile isDigit, more.dropWhile isDigit)
    | _ => ([], rest)
  match digits? 10 (whole ++ part), exponent? rest with
  | some digits, some e => some (Binary64.ofDecimal negative digits (e - part.length))
  | _, _ => none

/-- The number that a text stands for. -/
def real? (cs : List Char) : Option Binary64 :=
  let (negative, rest) := sign cs
  match rest.map Char.toLower with
  | ['i', 'n', 'f'] => some (.infinite negative)
  | ['i', 'n', 'f', 'i', 'n', 'i', 't', 'y'] => some (.infinite negative)
  | ['n', 'a', 'n'] => some .undefined
  | _ => decimal? negative rest

end LightingDesk.Number
