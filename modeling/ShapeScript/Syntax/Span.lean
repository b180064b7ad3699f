/-!
Byte ranges in the source of a script.
-/

namespace ShapeScript

/-- The bytes from `start` up to, not including, `stop`. Nothing forbids `stop < start`. -/
structure Span where
  start : UInt32
  stop : UInt32
deriving DecidableEq, Repr, Inhabited

namespace Span

/-- The span of what has no source text. -/
def dummy : Span := ⟨0, 0⟩

/-- The empty span at an offset. -/
def point (offset : UInt32) : Span := ⟨offset, offset⟩

/-- The number of bytes; a reversed span has none. -/
def length? (s : Span) : Option UInt32 :=
  if s.stop < s.start then none else some (s.stop - s.start)

def isEmpty (s : Span) : Bool := s.start == s.stop

def contains (s : Span) (offset : UInt32) : Bool :=
  s.start ≤ offset && offset < s.stop

/-- The smallest span that covers both. -/
def merge (a b : Span) : Span :=
  ⟨if a.start ≤ b.start then a.start else b.start, if a.stop ≤ b.stop then b.stop else a.stop⟩

/-- Both ends, with two dots between. -/
def text (s : Span) : String := s!"{s.start.toNat}..{s.stop.toNat}"

end Span

end ShapeScript
