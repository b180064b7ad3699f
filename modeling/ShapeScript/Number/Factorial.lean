import ShapeScript.Number.Binary64

/-!
The factorial of a number, taken of its integer part.
-/

namespace ShapeScript.Factorial

/-- From here on the factorial is too large for a finite number. -/
def limit : Nat := 171

/-- The product `1 * 1 * 2 * ... * n`, multiplied up in this order and rounded at each step. -/
def product : Nat → Float
  | 0 => 1
  | n + 1 => product n * (n + 1).toFloat

/-- Zero below zero and for NaN, infinity from the limit on. -/
def ofNumber (v : Float) : Float :=
  let n := Binary64.truncate v
  if n.isNaN || n < 0 then 0
  else if limit.toFloat ≤ n then Binary64.infinity
  else product (Binary64.toInt n).toNat

end ShapeScript.Factorial
