import LightingDesk.Number.Binary64

/-!
# Shortest decimals

A number is written with the fewest digits that read back as the same number: of the decimals
with so many digits the nearest, and of two that are equally near the greater.  The digits
are written out around the point, however many zeros that takes.
-/

namespace LightingDesk

/-- A positive decimal: `digits * 10 ^ exponent`. -/
structure Decimal where
  digits : Nat
  exponent : Int
deriving DecidableEq, Repr

namespace Decimal

open Number (power)

/-- Compares `a * 10 ^ i` with `n * 2 ^ j`. -/
def compareBinary (a : Nat) (i : Int) (n : Nat) (j : Int) : Ordering :=
  compare (a * power 10 i.toNat * power 2 (-j).toNat) (n * power 2 j.toNat * power 10 (-i).toNat)

/-- Whether the nearest number to the decimal is `m * 2 ^ q`: the decimal lies between the middles
to both neighbours, or on one of them if `m` is even.  Below a power of two the neighbour
is only half as far. -/
def readsBack (d : Decimal) (m : Nat) (q : Int) : Bool :=
  let low := if m = power 2 52 ∧ -1074 < q then 4 * m - 1 else 4 * m - 2
  let above := compareBinary d.digits d.exponent low (q - 2)
  let below := compareBinary d.digits d.exponent (4 * m + 2) (q - 2)
  (above = .gt ∨ (m % 2 = 0 ∧ above = .eq)) ∧ (below = .lt ∨ (m % 2 = 0 ∧ below = .eq))

/-- The whole part of `m * 2 ^ q / 10 ^ k`. -/
def floorScaled (m : Nat) (q k : Int) : Nat :=
  (m * power 2 q.toNat * power 10 (-k).toNat) / (power 2 (-q).toNat * power 10 k.toNat)

/-- The decimal with exponent `k` that is nearest to `m * 2 ^ q` among those that read back. -/
def pick (m : Nat) (q k : Int) : Option Decimal :=
  let low : Decimal := ⟨floorScaled m q k, k⟩
  let high : Decimal := ⟨floorScaled m q k + 1, k⟩
  match low.readsBack m q, high.readsBack m q with
  | true, true =>
    if compareBinary (low.digits + high.digits) k (2 * m) q = .gt then some low else some high
  | true, false => some low
  | false, true => some high
  | false, false => none

/-- The least power of ten above `m * 2 ^ q`, found among the next few from `k` on. -/
def powerAbove (m : Nat) (q : Int) : Nat → Int → Int
  | 0, k => k
  | tries + 1, k => if compareBinary 1 k m q = .gt then k else powerAbove m q tries (k + 1)

/-- The shortest decimal for the positive number `m * 2 ^ q`. -/
def shortest (m : Nat) (q : Int) : Decimal :=
  let guess := ((Nat.log2 m : Int) + q) * 30103 / 100000 - 1
  let top := powerAbove m q 4 guess
  match (List.range 17).findSome? fun (n : Nat) => pick m q (top - ((n : Int) + 1)) with
  | some d => d
  | none => ⟨m * power 2 q.toNat * power 5 (-q).toNat, -((-q).toNat : Int)⟩

/-- A decimal without zeros at its end. -/
def strip : Nat → Decimal → Decimal
  | 0, d => d
  | tries + 1, d =>
    if d.digits % 10 = 0 ∧ d.digits ≠ 0 then strip tries ⟨d.digits / 10, d.exponent + 1⟩ else d

/-- A decimal written out around the point; a whole number has no point. -/
def text (d : Decimal) : String :=
  let d := strip 400 d
  let written := Nat.toDigits 10 d.digits
  if 0 ≤ d.exponent then String.ofList (written ++ List.replicate d.exponent.toNat '0')
  else
    let places := (-d.exponent).toNat
    let padded := List.replicate (places + 1 - written.length) '0' ++ written
    let whole := padded.length - places
    String.ofList (padded.take whole ++ '.' :: padded.drop whole)

end Decimal

/-- The text of a number. -/
def Binary64.text : Binary64 → String
  | .finite negative m q =>
    (if negative then "-" else "") ++ (if m = 0 then "0" else (Decimal.shortest m q).text)
  | .infinite negative => if negative then "-inf" else "inf"
  | .undefined => "NaN"

end LightingDesk
