import ShapeScript.Number.Decimal
import ShapeScript.Text.Blank

/-!
Reading a number from its text.

After blanks at both ends are dropped, a numeral is an optional sign followed by `inf`, `infinity`
or `nan` in any case of letters, or by decimal digits with an optional point (at least one digit
before or after it) and an optional exponent of at least one digit. It denotes the nearest number.
-/

namespace ShapeScript.Literal

/-- The value of a row of digits, the most significant first. -/
def digitsValue (digits : List Char) : Nat :=
  digits.foldl (fun value c => value * 10 + (c.toNat - '0'.toNat)) 0

/-- A sign, if there is one, and the rest. -/
def splitSign : List Char → Bool × List Char
  | '-' :: rest => (true, rest)
  | '+' :: rest => (false, rest)
  | rest => (false, rest)

/-- The power of ten that follows the digits of a numeral; nothing stands for zero. -/
def exponent? : List Char → Option Int
  | [] => some 0
  | c :: rest =>
    if c = 'e' ∨ c = 'E' then
      let (negative, digits) := splitSign rest
      if digits.isEmpty || !digits.all Char.isDigit then none
      else
        let value : Int := digitsValue digits
        some (if negative then -value else value)
    else none

/-- The digits after the point, and what follows them. -/
def splitFraction : List Char → List Char × List Char
  | '.' :: rest => (rest.takeWhile Char.isDigit, rest.dropWhile Char.isDigit)
  | rest => ([], rest)

/-- An unsigned numeral of digits. -/
def decimal? (body : List Char) : Option Decimal :=
  let whole := body.takeWhile Char.isDigit
  let (fraction, rest) := splitFraction (body.dropWhile Char.isDigit)
  if whole.isEmpty && fraction.isEmpty then none
  else
    (exponent? rest).map fun exponent =>
      ⟨digitsValue (whole ++ fraction), exponent - (fraction.length : Int)⟩

/-- The number that a trimmed text denotes. -/
def number? (trimmed : List Char) : Option Float :=
  let (negative, body) := splitSign trimmed
  let lowered := body.map Char.toLower
  if lowered = ['n', 'a', 'n'] then some Binary64.nan
  else if lowered = ['i', 'n', 'f'] ∨ lowered = ['i', 'n', 'f', 'i', 'n', 'i', 't', 'y'] then
    some (Binary64.ofMagnitude negative Binary64.infinityMagnitude)
  else
    (decimal? body).map fun d => Binary64.ofMagnitude negative d.nearestMagnitude

/-- The number that a text denotes. -/
def parse? (text : String) : Option Float :=
  number? (Blank.trim text.toList)

end ShapeScript.Literal
