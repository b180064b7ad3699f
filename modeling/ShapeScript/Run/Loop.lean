import ShapeScript.Run.Signal

/-!
Loops.

Each execution of a loop counts its iterations anew. Before a body starts, the ceiling is checked
first and the deadline second. The value of a loop is that of its last completed body; a break that
carries a value overrides it.
-/

namespace ShapeScript

namespace Run

/-- How the body of a loop ended. -/
inductive Lap where
  | completed (value : Option Float)
  | skipped
  | left (value : Option Float)

/-- Runs a body and takes in its breaks and continues; other signals pass. -/
def lap (body : Code) : Run Lap := fun setting slots =>
  match body setting slots with
  | .ok value slots => .ok (.completed value) slots
  | .error (.breaks value _) slots => .ok (.left value) slots
  | .error (.continues _) slots => .ok .skipped slots
  | .error signal slots => .error signal slots

/-- Fails because the ceiling is reached. -/
def exhausted {α : Type} (span : Span) : Run α := do
  failAt (.iterationLimit (← readThe Setting).ceiling) span

/-- Fails if the deadline has passed. -/
def checkDeadline (span : Span) : Run Unit := do
  let setting ← readThe Setting
  if setting.deadline.isExpired setting.now then failAt .timeout span

end Run

/-- A loop with its parts already turned into runs. -/
structure Loop where
  /-- The condition and its place; without one the loop goes on until something else ends it. -/
  cond : Option (Code × Span)
  update : Option Code
  body : Code
  span : Span

namespace Loop

open Run

/-- Whether the loop goes on. -/
def test (l : Loop) : Run Bool :=
  match l.cond with
  | some (cond, span) => condition cond span
  | none => pure true

/-- What is done between two iterations. -/
def advance (l : Loop) : Run Unit :=
  match l.update with
  | some update => discard update
  | none => pure ()

/-- Condition, body, update, and so on, with so many iterations left. -/
def iterate (l : Loop) : (left : Nat) → (last : Option Float) → Code
  | 0, last => do
    if ← l.test then exhausted l.span else return last
  | left + 1, last => do
    if ← l.test then
      checkDeadline l.span
      match ← lap l.body with
      | .completed value => l.advance; l.iterate left value
      | .skipped => l.advance; l.iterate left last
      | .left value => return value.or last
    else return last

/-- The condition comes first. -/
def run (l : Loop) : Code := do
  l.iterate (← readThe Setting).ceiling none

/-- Body, condition, and so on, with so many iterations left. -/
def iterateBodyFirst (l : Loop) : (left : Nat) → (last : Option Float) → Code
  | 0, _ => exhausted l.span
  | left + 1, last => do
    checkDeadline l.span
    match ← lap l.body with
    | .completed value => if ← l.test then l.iterateBodyFirst left value else return value
    | .skipped => if ← l.test then l.iterateBodyFirst left last else return last
    | .left value => return value.or last

/-- The body comes first. -/
def runBodyFirst (l : Loop) : Code := do
  l.iterateBodyFirst (← readThe Setting).ceiling none

end Loop

/-- A loop that counts a variable up by one. -/
structure CountedLoop where
  counter : String
  body : Code
  span : Span

namespace CountedLoop

open Run

/-- Iterations from `count` on, with so many left. The variable is set before each of them from a
count of its own, so the body cannot change how often it runs. -/
def iterate (l : CountedLoop) (bound : Float) :
    (left : Nat) → (count : Float) → (last : Option Float) → Code
  | 0, count, last => if count ≤ bound then exhausted l.span else pure last
  | left + 1, count, last =>
    if count ≤ bound then do
      checkDeadline l.span
      assign l.counter l.span count
      match ← lap l.body with
      | .completed value => l.iterate bound left (count + 1) value
      | .skipped => l.iterate bound left (count + 1) last
      | .left value => return value.or last
    else pure last

/-- Counts from the first bound to the last one, included. -/
def run (l : CountedLoop) (first last : Float) : Code := do
  l.iterate last (← readThe Setting).ceiling first none

end CountedLoop

end ShapeScript
