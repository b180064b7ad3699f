import ShapeScript.Number.Binary64

/-!
Decimal numerals: a whole number times a power of ten, and the number nearest to it.
-/

namespace ShapeScript

/-- The value `digits * 10 ^ exponent`. -/
structure Decimal where
  digits : Nat
  exponent : Int
deriving DecidableEq, Repr

namespace Decimal

/-- Every value from `10 ^ 400` on is infinite and every value below `10 ^ -400` is zero, so
larger powers of ten need not be formed. -/
def reach : Nat := 400

/-- The magnitude of the nearest number, a tie going to the even one. -/
def nearestMagnitude (d : Decimal) : Nat :=
  if d.digits = 0 then 0
  else if d.exponent > reach then Binary64.infinityMagnitude
  else if d.exponent < -(reach + d.digits.log2 + 1 : Nat) then 0
  else if 0 ≤ d.exponent then
    Binary64.nearestMagnitude (d.digits * Nat.pow 10 d.exponent.toNat * Binary64.unitsPerOne) 1
  else
    Binary64.nearestMagnitude (d.digits * Binary64.unitsPerOne) (Nat.pow 10 (-d.exponent).toNat)

/-- The same value without final zeros among the digits. -/
def reduce (digits : Nat) (exponent : Int) : Decimal :=
  if h : digits ≠ 0 ∧ digits % 10 = 0 then reduce (digits / 10) (exponent + 1)
  else ⟨digits, exponent⟩
termination_by digits
decreasing_by omega

end Decimal

end ShapeScript
