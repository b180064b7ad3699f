import ShapeScript.Syntax.Scope
import ShapeScript.Run.Signal

/-!
Leaving constructs: break, continue and return.
-/

namespace ShapeScript.Run

/-- A break outside of loops and switches fails when it is reached. -/
def breakOut (scope : Scope) (span : Span) : Code :=
  if scope.breakable then throw (.breaks none span) else failAt .breakOutsideLoop span

/-- A continue outside of loops fails when it is reached. -/
def continueOn (scope : Scope) (span : Span) : Code :=
  if scope.inLoop then throw (.continues span) else failAt .continueOutsideLoop span

/-- Ends the script with what a run answers, or with nothing. -/
def returnWith : Option Code → Code
  | some value => do throw (.returns (← value))
  | none => throw (.returns none)

end ShapeScript.Run
