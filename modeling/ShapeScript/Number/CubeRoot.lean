import ShapeScript.Number.Binary64

/-!
Cube roots, correctly rounded.

In units, the root of `u` is the whole-number root of `u * 2 ^ 2148` and a fraction. That root has
far more binary digits than a number keeps, so of the fraction only matters whether there is one.
-/

namespace ShapeScript.CubeRoot

/-- The largest number whose cube is at most `n`, among those that agree with `root` except in the
last `places` binary digits. -/
def refine (n : Nat) : (places root : Nat) → Nat
  | 0, root => root
  | places + 1, root =>
    let next := root + Nat.pow 2 places
    if next * next * next ≤ n then refine n places next else refine n places root

/-- The largest number whose cube is at most `n`. -/
def floorRoot (n : Nat) : Nat := refine n (n.log2 / 3 + 1) 0

/-- The number nearest to the cube root. -/
def ofNumber (v : Float) : Float :=
  if v.isNaN || v.isInf || v == 0 then v
  else
    let cube := Binary64.units v * Binary64.unitsPerOne * Binary64.unitsPerOne
    let root := floorRoot cube
    let rest := if root * root * root = cube then 0 else 1
    Binary64.nearest (Binary64.isNegative v) (2 * root + rest) 2

end ShapeScript.CubeRoot
