/-!
Lines and columns of byte offsets.

Offsets count bytes of the UTF-8 source, columns count characters, and lines and columns start at
one. A table keeps the offsets at which lines start, in ascending order, and a line is found among
them by halving. A query brings its own text, which need not be the one the table was built from.

Lines and columns are words of 32 bits. Of a source of 4294967295 bytes the last one may have no room
there, and comes out as zero; where overflow is checked, there is no answer at all.
-/

namespace ShapeScript

namespace Bytes

/-- The bytes of the characters. -/
def encode (text : List Char) : List UInt8 := text.flatMap String.utf8EncodeChar

/-- How many bytes the characters take. -/
def size : List Char → Nat
  | [] => 0
  | c :: rest => c.utf8Size + size rest

/-- What follows the first `n` bytes, if a character ends there. -/
def drop? : List Char → Nat → Option (List Char)
  | text, 0 => some text
  | [], _ + 1 => none
  | c :: rest, n + 1 => if c.utf8Size ≤ n + 1 then drop? rest (n + 1 - c.utf8Size) else none

/-- The first `n` bytes, if a character ends there. -/
def take? : List Char → Nat → Option (List Char)
  | _, 0 => some []
  | [], _ + 1 => none
  | c :: rest, n + 1 =>
    if c.utf8Size ≤ n + 1 then (take? rest (n + 1 - c.utf8Size)).map (c :: ·) else none

/-- The bytes from `start` up to `stop`, if characters begin at both. -/
def slice? (text : List Char) (start stop : Nat) : Option (List Char) :=
  if start ≤ stop then (drop? text start).bind (take? · (stop - start)) else none

end Bytes

/-- Where lines start: `starts[i]` is the offset of line `i + 1`. -/
structure LineTable where
  starts : Array Nat
deriving DecidableEq, Repr

namespace LineTable

/-- The byte that ends lines. -/
def newline : UInt8 := 10

/-- The offsets just behind the newlines among bytes, the first of which is at `offset`. -/
def startsFrom (offset : Nat) : List UInt8 → List Nat
  | [] => []
  | byte :: rest =>
    if byte = newline then (offset + 1) :: startsFrom (offset + 1) rest
    else startsFrom (offset + 1) rest

def build (source : List Char) : LineTable := ⟨(0 :: startsFrom 0 (Bytes.encode source)).toArray⟩

def lineCount (t : LineTable) : Nat := t.starts.size

/-- The entry at a place. -/
def entry (starts : Array Nat) (place : Nat) : Nat := starts.getD place 0

/-- Narrows the `length` places from `base` on down to one by halving: to the right half if that
does not begin behind the offset, else to the left half, which keeps the middle if the length is
odd. -/
def narrow (starts : Array Nat) (offset base length : Nat) : Nat :=
  if length ≤ 1 then base
  else
    let middle := base + length / 2
    let rest := length - length / 2
    if entry starts middle ≤ offset then narrow starts offset middle rest
    else narrow starts offset base rest
termination_by length

/-- The place of an offset among ascending ones, or else the place where it is missing. -/
def search (starts : Array Nat) (offset : Nat) : Except Nat Nat :=
  if starts.size = 0 then .error 0
  else
    let base := narrow starts offset 0 starts.size
    if entry starts base = offset then .ok base
    else .error (if entry starts base < offset then base + 1 else base)

/-- The place of the start of the line of an offset: the one at the offset, or else the last one before
it. -/
def placeOf (t : LineTable) (offset : Nat) : Nat :=
  match search t.starts offset with
  | .ok exact => exact
  | .error next => next - 1

/-- The number of what stands behind so many others, as a word: numbers begin with one. -/
def ordinal (others : Nat) : Nat := (others.toUInt32 + 1).toNat

/-- The line of an offset: the one that starts there, or else the last one that starts before. -/
def lineOf (t : LineTable) (offset : Nat) : Nat := ordinal (t.placeOf offset)

/-- The offset at which a line starts; zero for a line that the table does not have. -/
def lineStart (t : LineTable) (line : Nat) : Nat := entry t.starts (line - 1)

/-- How many characters stand in front of an offset in its line. Behind the end, the end counts. Where
the bytes in front of the offset are no text, they count one by one. -/
def indentOf (t : LineTable) (source : List Char) (offset : Nat) : Nat :=
  let start := t.lineStart (t.lineOf offset)
  let stop := min offset (Bytes.size source)
  match Bytes.slice? source start stop with
  | some text => text.length
  | none => stop - start

/-- Line and column of an offset. -/
def position (t : LineTable) (source : List Char) (offset : Nat) : Nat × Nat :=
  (t.lineOf offset, ordinal (t.indentOf source offset))

/-- Where the text of a line ends: in front of its newline, or with the source. -/
def lineStop (t : LineTable) (source : List Char) (line : Nat) : Nat :=
  match t.starts[line]? with
  | some next => next - 1
  | none => Bytes.size source

/-- The text of a line without its newline and without carriage returns in front of it. Where the
table does not fit the text there may be none. -/
def lineText (t : LineTable) (source : List Char) (line : Nat) : List Char :=
  let start := min (t.lineStart line) (Bytes.size source)
  let stop := max (t.lineStop source line) start
  let text := (Bytes.slice? source start stop).getD []
  (text.reverse.dropWhile (· == '\r')).reverse

/-- Line and column in a table made for the occasion. -/
def positionIn (source : List Char) (offset : Nat) : Nat × Nat :=
  (build source).position source offset

end LineTable

end ShapeScript
