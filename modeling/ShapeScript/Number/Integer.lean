import ShapeScript.Number.Binary64

/-!
The operators on 64-bit integers: shifts and complement.

Their operands are cut to integers first: truncated toward zero, clamped to the 64-bit range, NaN
as zero. A shift distance counts modulo 64.
-/

namespace ShapeScript.Integer

/-- The integer part of `v`, clamped to the signed 64-bit range. -/
def ofNumber (v : Float) : Int64 :=
  Int64.ofIntClamp (Binary64.toInt v)

def toNumber (n : Int64) : Float :=
  Binary64.ofInt n.toInt

/-- Bits that leave on the left are lost. -/
def shiftLeft (l r : Float) : Float :=
  toNumber (ofNumber l <<< ofNumber r)

/-- The sign is kept, so this is division by a power of two toward the floor. -/
def shiftRight (l r : Float) : Float :=
  toNumber (ofNumber l >>> ofNumber r)

def complement (v : Float) : Float :=
  toNumber (~~~ ofNumber v)

end ShapeScript.Integer
