import ShapeScript.Run.Signal

/-!
Calls of host functions.

Arguments are taken in order. A variable passed by reference contributes its value at that moment,
zero if it is new, and is written only after the function has succeeded.
-/

namespace ShapeScript.Run

inductive Argument where
  | value (code : Code) (span : Span)
  | reference (var : String) (span : Span)

/-- The value that a variable passed by reference brings along. -/
def copyIn (var : String) (span : Span) : Run Float := do
  match (← get).slot? var with
  | some (.var v) => return v
  | some (.const _) => failAt (.constantReassignment var) span
  | none => return 0

namespace Argument

def collect : Argument → Run Float
  | value code span => required code span
  | reference var span => copyIn var span

end Argument

/-- The values of the arguments, in order. -/
def collectAll : List Argument → Run (List Float)
  | [] => return []
  | arg :: rest => do
    let v ← arg.collect
    return v :: (← collectAll rest)

/-- Hands the buffer back to the variables passed by reference, in order. -/
def writeBack : List Argument → List Float → Run Unit
  | .value .. :: args, _ :: buffer => writeBack args buffer
  | .reference var span :: args, v :: buffer => do
    assign var span v
    writeBack args buffer
  | _, _ => return ()

/-- Calls the function with a number in the registry of the run. -/
def call (id : FunctionId) (name : String) (args : List Argument) (span : Span) : Code := do
  let values ← collectAll args
  match (← readThe Setting).registry.function? id with
  | none => failAt .registryMismatch span
  | some function =>
    let reply := function.run values
    match reply.result with
    | .failed message => failAt (.functionFailed name message) span
    | .overrun => throw .overruns
    | .value result =>
      writeBack args reply.buffer
      return some result

end ShapeScript.Run
