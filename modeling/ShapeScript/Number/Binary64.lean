/-!
The exact value of a number, and the number nearest to an exact value.

Every finite 64-bit number is a whole multiple of the least positive one, `2 ^ -1074`, which is
the *unit* here. `units v` counts them, and `nearestMagnitude num den` is the bit pattern (sign
apart) of the number nearest to `num / den` units, a tie going to the even pattern. Exact integer
arithmetic on units thus replaces reasoning about exponents.
-/

namespace ShapeScript.Binary64

/-- One is `2 ^ 1074` units. -/
def unitsPerOne : Nat := Nat.pow 2 1074

/-- How many magnitudes share one exponent: `2 ^ 52`. -/
def perExponent : Nat := 0x10000000000000

/-- The value of the sign bit: `2 ^ 63`. -/
def signBit : Nat := 0x8000000000000000

/-- Patterns at least this large (sign apart) are no finite numbers. -/
def infinityMagnitude : Nat := 0x7FF * perExponent

def infinity : Float := Float.ofBits 0x7FF0000000000000

def nan : Float := Float.ofBits 0x7FF8000000000000

/-- The sign bit, which is also set in negative zero. -/
def isNegative (v : Float) : Bool := v.toBits.toNat / signBit == 1

/-- The bit pattern without its sign. -/
def magnitude (v : Float) : Nat := v.toBits.toNat % signBit

/-- How many units the number with this magnitude has. The pattern of infinity counts as the
power of two that follows the largest finite number. -/
def unitsOfMagnitude (m : Nat) : Nat :=
  if m < perExponent then m
  else (m % perExponent + perExponent) * Nat.pow 2 (m / perExponent - 1)

/-- The absolute value of `v`, counted in units. -/
def units (v : Float) : Nat := unitsOfMagnitude (magnitude v)

/-- The number with a given sign and magnitude. -/
def ofMagnitude (negative : Bool) (m : Nat) : Float :=
  Float.ofBits (UInt64.ofNat (if negative then signBit + m else m))

/-- The magnitude nearest to `num / den` units. The quotient is cut after 53 binary digits; the
remainder decides whether to go one up, and a tie goes to the even quotient. A quotient that
reaches 54 digits this way carries into the exponent by itself. -/
def nearestMagnitude (num den : Nat) : Nat :=
  let shift := (num / den).log2 - 52
  let step := den * Nat.pow 2 shift
  let quotient := num / step
  let twice := 2 * (num % step)
  let up := if step < twice || (step == twice && quotient % 2 == 1) then 1 else 0
  min (shift * perExponent + quotient + up) infinityMagnitude

/-- The number nearest to `num / den` units, with the sign given apart. -/
def nearest (negative : Bool) (num den : Nat) : Float :=
  ofMagnitude negative (nearestMagnitude num den)

/-- The number nearest to an integer. -/
def ofInt (n : Int) : Float :=
  nearest (decide (n < 0)) (n.natAbs * unitsPerOne) 1

/-- The integer part, toward zero. NaN has none and counts as zero; an infinity counts as the
power of two beyond the finite numbers. -/
def toInt (v : Float) : Int :=
  if v.isNaN then 0
  else
    let whole : Int := (units v / unitsPerOne : Nat)
    if isNegative v then -whole else whole

/-- The fraction is dropped; the sign stays, also that of a zero. -/
def truncate (v : Float) : Float :=
  if v.isNaN then v
  else nearest (isNegative v) (units v / unitsPerOne * unitsPerOne) 1

/-- The nearest integral number, a half going to the even neighbour. -/
def roundHalfEven (v : Float) : Float :=
  if v.isNaN then v
  else
    let whole := units v / unitsPerOne
    let twice := 2 * (units v % unitsPerOne)
    let up := if unitsPerOne < twice || (unitsPerOne == twice && whole % 2 == 1) then 1 else 0
    nearest (isNegative v) ((whole + up) * unitsPerOne) 1

/-- The remainder of the division that truncates. It is exact and has the sign of the dividend. -/
def remainder (a b : Float) : Float :=
  if a.isNaN || b.isNaN || magnitude a == infinityMagnitude || magnitude b == 0 then nan
  else if magnitude b == infinityMagnitude then a
  else nearest (isNegative a) (units a % units b) 1

end ShapeScript.Binary64
