import ShapeScript.Environment.Slots
import ShapeScript.Environment.Deadline
import ShapeScript.Function.Registry

/-!
Runs: what the code of a node does to the slots, and how it can end.

A run ends with a number, with nothing, or with a signal. Signals are break, continue and return on
their way to the construct that they leave, and failures. What a run may look at but never change
is its setting.
-/

namespace ShapeScript

/-- What a run goes by: the functions, the limits and the time. Only deadlines that have passed or
will not pass while the script runs are told apart, so the time stands still. -/
structure Setting where
  registry : Registry
  /-- How many iterations one execution of a loop may run. -/
  ceiling : Nat
  deadline : Deadline
  now : Instant

/-- A way to end other than with a result. -/
inductive Signal where
  /-- Leaves the nearest loop or switch with the last value before the break. -/
  | breaks (value : Option Float) (span : Span)
  /-- Goes on to the next iteration of the nearest loop. -/
  | continues (span : Span)
  /-- Leaves the whole script. -/
  | returns (value : Option Float)
  | fails (error : RunError)
  /-- A host function reached outside its arguments. -/
  | overruns
deriving DecidableEq

/-- Slots keep their changes however the run ends. -/
abbrev Run := ReaderT Setting (EStateM Signal Slots)

/-- The run of a node: a number or nothing. -/
abbrev Code := Run (Option Float)

namespace Run

/-- Fails at a node. -/
def failAt {α : Type} (fault : RunFault) (span : Span) : Run α :=
  throw (.fails ⟨fault, some span⟩)

/-- Takes a slot operation, a slot error being the fault of the variable at a node. -/
def orFail {α : Type} (var : String) (span : Span) : Except SlotError α → Run α
  | .ok a => pure a
  | .error e => failAt (e.fault var) span

/-- The result of an operand, which must have one. -/
def required (code : Code) (span : Span) : Run Float := do
  match ← code with
  | some value => pure value
  | none => failAt .noValue span

/-- Zero is false; everything else, NaN included, is true. -/
def truth (v : Float) : Bool := v != 0

/-- One for true, zero for false. -/
def ofBool (b : Bool) : Float := if b then 1 else 0

/-- The truth of a condition, which must have a value. -/
def condition (code : Code) (span : Span) : Run Bool :=
  return truth (← required code span)

/-- The value of a slot of either kind. -/
def read (var : String) (span : Span) : Run Float := do
  orFail var span ((← get).value var)

/-- Assigns a variable that may be new. -/
def assign (var : String) (span : Span) (v : Float) : Run Unit := do
  set (← orFail var span ((← get).assign var v))

/-- Replaces the value of an existing variable; answers the old value and the new one. -/
def change (var : String) (span : Span) (f : Float → Float) : Run (Float × Float) := do
  let old ← orFail var span ((← get).varValue var)
  let new := f old
  modify (·.write var new)
  return (old, new)

end Run

end ShapeScript
