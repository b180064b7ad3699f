/-!
Deep nesting.

A script nests as deep as it is long, and so does the recursion over it. A recursion that is about
to run out of stack continues on a new segment; it computes the same either way.
-/

namespace ShapeScript.Nesting

/-- With fewer bytes of stack left than this, a new segment is taken. -/
def redZone : Nat := 128 * 1024

/-- How many bytes a new segment has. -/
def segmentSize : Nat := 2 * 1024 * 1024

/-- The depths of a recursion added up, from zero to the given one. -/
def depthSum (depth : Nat) : Nat := go depth 0
where
  go : Nat → Nat → Nat
    | 0, total => total
    | depth + 1, total => go depth (total + (depth + 1))

end ShapeScript.Nesting
