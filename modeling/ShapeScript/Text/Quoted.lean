import ShapeScript.Text.Unprintable

/-!
Quoted text: a string between double quotes in which nothing is invisible.
-/

namespace ShapeScript.Quoted

/-- A code point as an escape of lower-case hexadecimal digits. -/
def codePoint (c : Char) : List Char :=
  ['\\', 'u', '\x7b'] ++ Nat.toDigits 16 c.toNat ++ ['\x7d']

/-- One character of the quoted text. -/
def escape (c : Char) : List Char :=
  if c = '"' then ['\\', '"']
  else if c = '\\' then ['\\', '\\']
  else if c = '\n' then ['\\', 'n']
  else if c = '\r' then ['\\', 'r']
  else if c = '\t' then ['\\', 't']
  else if c = '\x00' then ['\\', '0']
  else if Unprintable.isUnprintable c then codePoint c
  else [c]

/-- The quoted form of a string. -/
def quote (s : String) : String :=
  String.ofList ('"' :: s.toList.flatMap escape ++ ['"'])

end ShapeScript.Quoted
