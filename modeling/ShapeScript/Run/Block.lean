import ShapeScript.Run.Signal

/-!
Runs in sequence: the statements of a block and the tail of a switch.
-/

namespace ShapeScript.Run

/-- Statements in order, valued by the last one that ran. A break that passes and carries no value
takes the value so far. -/
def block : List Code → Option Float → Code
  | [], last => pure last
  | stmt :: rest, last => fun setting slots =>
    match stmt setting slots with
    | .ok value slots => block rest value setting slots
    | .error (.breaks value span) slots => .error (.breaks (value.or last) span) slots
    | .error signal slots => .error signal slots

/-- Bodies in order until one breaks, valued by the break or else by the last body before it. -/
def fallThrough : List Code → Option Float → Code
  | [], last => pure last
  | body :: rest, last => fun setting slots =>
    match body setting slots with
    | .ok value slots => fallThrough rest value setting slots
    | .error (.breaks value _) slots => .ok (value.or last) slots
    | .error signal slots => .error signal slots

end ShapeScript.Run
