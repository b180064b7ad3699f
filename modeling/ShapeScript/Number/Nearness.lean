/-!
Near-equality of two numbers.

Two numbers are near when few patterns lie between theirs. Patterns are put into the order of the
numbers first, with both zeros at the origin, and the distance is taken in wrapping 64-bit
arithmetic. The absolute value wraps as well, so the pattern distance `2 ^ 63` counts as near.
Among patterns are all those of NaNs, of which only one is the pattern of a `Float`.
-/

namespace ShapeScript.Nearness

/-- The largest distance at which two numbers are still near. -/
def tolerance : Int64 := 450359963

/-- The place of a pattern in the order of the numbers. -/
def rank (bits : UInt64) : Int64 :=
  let signed := bits.toInt64
  if signed < 0 then Int64.minValue - signed else signed

/-- Whether two patterns are near. -/
def near (a b : UInt64) : Bool :=
  (rank a - rank b).abs ≤ tolerance

end ShapeScript.Nearness
