import ShapeScript.Number.Decimal

/-!
The text of a number: the shortest decimal numeral that reads back as the same number.

Of several shortest ones the nearest is taken, and of two equally near ones the upper. Notation is
always positional, whole numbers have no point, and a zero keeps its sign.
-/

namespace ShapeScript.Shortest

/-- The most digits that any number needs. -/
def mostDigits : Nat := 17

/-- The two neighbours of a value on the grid of numerals with `n` digits, the lower one first,
and whether the value lies below their midpoint. `scaled` is the value times `10 ^ 400`, cut to a
whole number of `size` digits. -/
structure Neighbours where
  lower : Decimal
  upper : Decimal
  belowMidpoint : Bool

/-- The neighbours of `units / 2 ^ 1074` on the grid with `n` digits. -/
def neighbours (units n : Nat) : Neighbours :=
  let scaled := units * Nat.pow 10 Decimal.reach / Binary64.unitsPerOne
  let size := (Nat.toDigits 10 scaled).length
  let step := Nat.pow 10 (size - n)
  let low := scaled / step
  let exponent : Int := (size - n : Nat) - (Decimal.reach : Int)
  { lower := Decimal.reduce low exponent
    upper := Decimal.reduce (low + 1) exponent
    belowMidpoint :=
      2 * units * Nat.pow 10 Decimal.reach < (2 * low + 1) * step * Binary64.unitsPerOne }

/-- The numeral with `n` digits that reads back as `magnitude`, if there is one. -/
def withDigits? (magnitude n : Nat) : Option Decimal :=
  let near := neighbours (Binary64.unitsOfMagnitude magnitude) n
  let lowerReads := near.lower.nearestMagnitude == magnitude
  let upperReads := near.upper.nearestMagnitude == magnitude
  if lowerReads && (near.belowMidpoint || !upperReads) then some near.lower
  else if upperReads then some near.upper
  else none

/-- The value itself, with all its digits. -/
def exact (magnitude : Nat) : Decimal :=
  Decimal.reduce (Binary64.unitsOfMagnitude magnitude * Nat.pow 5 1074) (-1074)

/-- The shortest numeral for a finite magnitude. -/
def numeral (magnitude : Nat) : Decimal :=
  ((List.range' 1 mostDigits).findSome? (withDigits? magnitude)).getD (exact magnitude)

/-- A numeral in positional notation. -/
def positional (d : Decimal) : List Char :=
  let digits := Nat.toDigits 10 d.digits
  if 0 ≤ d.exponent then digits ++ List.replicate d.exponent.toNat '0'
  else
    let places := (-d.exponent).toNat
    let padded := List.replicate (places + 1 - digits.length) '0' ++ digits
    padded.take (padded.length - places) ++ '.' :: padded.drop (padded.length - places)

/-- The text of a number as characters. -/
def chars (v : Float) : List Char :=
  let magnitude := Binary64.magnitude v
  if Binary64.infinityMagnitude < magnitude then ['N', 'a', 'N']
  else
    let body :=
      if magnitude = Binary64.infinityMagnitude then ['i', 'n', 'f']
      else if magnitude = 0 then ['0']
      else positional (numeral magnitude)
    if Binary64.isNegative v then '-' :: body else body

/-- The text of a number. -/
def text (v : Float) : String := String.ofList (chars v)

end ShapeScript.Shortest
