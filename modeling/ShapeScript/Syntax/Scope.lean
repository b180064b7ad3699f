/-!
The constructs around a node, as far as `break` and `continue` ask for them.
-/

namespace ShapeScript

/-- Which constructs lie around a node. -/
structure Scope where
  /-- A loop: `continue` has something to continue. -/
  inLoop : Bool
  /-- A loop or a switch: `break` has something to leave. -/
  breakable : Bool
deriving DecidableEq, Repr

namespace Scope

def outermost : Scope := ⟨false, false⟩

def loopBody (_ : Scope) : Scope := ⟨true, true⟩

def switchBody (s : Scope) : Scope := { s with breakable := true }

end Scope

end ShapeScript
