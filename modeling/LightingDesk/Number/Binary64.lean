/-!
# Binary numbers of 64 bits

The numbers that 53 binary digits and an exponent can hold, with two infinities and a value
for what is no number.  A decimal is rounded to the nearest of them, and of two that are
equally near to the one with an even last digit.

    rounding a quotient is off by at most half a unit              (roundHalfEven_near)
-/

namespace LightingDesk

/-- `base` times itself, `n` times over. -/
def Number.power (base n : Nat) : Nat := Nat.pow base n

/-- A number `m * 2 ^ q` with a sign, an infinity, or no number. -/
inductive Binary64
  | finite (negative : Bool) (m : Nat) (q : Int)
  | infinite (negative : Bool)
  | undefined
deriving DecidableEq, Repr

namespace Binary64

open Number (power)

/-- A quotient rounded to the nearest whole number, halves to the even neighbour. -/
def roundHalfEven (num den : Nat) : Nat :=
  let low := num / den
  let twice := 2 * (num % den)
  if twice < den then low
  else if den < twice then low + 1
  else if low % 2 = 0 then low else low + 1

theorem roundHalfEven_near (num den : Nat) (h : 0 < den) :
    2 * (roundHalfEven num den * den) ≤ 2 * num + den ∧
      2 * num ≤ 2 * (roundHalfEven num den * den) + den := by
  have hdiv := Nat.div_add_mod num den
  have hlt := Nat.mod_lt num h
  rw [Nat.mul_comm] at hdiv
  unfold roundHalfEven
  simp only
  split
  · constructor <;> omega
  · split
    · rw [Nat.add_mul, Nat.one_mul]
      constructor <;> omega
    · split
      · constructor <;> omega
      · rw [Nat.add_mul, Nat.one_mul]
        constructor <;> omega

/-- The power of two at or below a positive quotient. -/
def exponentOf (num den : Nat) : Int :=
  let guess : Int := (Nat.log2 num : Int) - (Nat.log2 den : Int)
  if den * power 2 guess.toNat ≤ num * power 2 (-guess).toNat then guess else guess - 1

/-- A quotient as the nearest number. -/
def ofRatio (negative : Bool) (num den : Nat) : Binary64 :=
  if num = 0 then .finite negative 0 0
  else
    let q := max (exponentOf num den - 52) (-1074)
    let m := roundHalfEven (num * power 2 (-q).toNat) (den * power 2 q.toNat)
    let (m, q) := if m = power 2 53 then (power 2 52, q + 1) else (m, q)
    if 971 < q then .infinite negative else .finite negative m q

/-- The nearest number to a decimal `digits * 10 ^ exponent`. -/
def ofDecimal (negative : Bool) (digits : Nat) (exponent : Int) : Binary64 :=
  let size : Int := (Nat.toDigits 10 digits).length
  if digits = 0 ∨ size + exponent < -330 then .finite negative 0 0
  else if 330 < size + exponent then .infinite negative
  else ofRatio negative (digits * power 10 exponent.toNat) (power 10 (-exponent).toNat)

/-- The greatest number of 64 bits. -/
def greatest : Nat := 18446744073709551615

/-- The nearest whole number from 0 to `greatest`, halves away from zero. -/
def roundNat : Binary64 → Nat
  | finite true _ _ => 0
  | finite false m q =>
    min greatest
      (if 0 ≤ q then m * power 2 q.toNat
      else (m + power 2 ((-q).toNat - 1)) / power 2 (-q).toNat)
  | infinite true => 0
  | infinite false => greatest
  | undefined => 0

end Binary64

end LightingDesk
