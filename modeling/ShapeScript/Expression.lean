import ShapeScript.Compile.Tree
import ShapeScript.Environment.Basic

/-!
Compiled expressions: compiled once, evaluated any number of times.
-/

namespace ShapeScript

structure Expression where
  code : Code
  /-- The identity of the registry that calls were resolved in. -/
  registry : Nat
  nodeCount : Nat
  /-- The variables that the expression reads or writes, in ascending order. -/
  vars : List String

/-- How an evaluation fails. -/
inductive Halt where
  | error (error : RunError)
  /-- A host function reached outside its arguments. -/
  | overrun
deriving DecidableEq

/-- What an evaluation answers: a number or nothing. -/
abbrev Evaluated := Except Halt (Option Float)

namespace Expression

def compile (registry : Registry) (tree : Tree) : Except CompileError Expression := do
  let (compiled, tally) ← (tree.compile registry .outermost).run .zero
  return ⟨compiled.code, registry.identity, tally.nodes, tally.vars.toList⟩

/-- How a run ends as a whole. Breaks and continues that nothing took in are out of place. -/
def conclude : Except Signal (Option Float) → Evaluated
  | .ok value => .ok value
  | .error (.returns value) => .ok value
  | .error (.fails error) => .error (.error error)
  | .error .overruns => .error .overrun
  | .error (.breaks _ span) => .error (.error ⟨.breakOutsideLoop, some span⟩)
  | .error (.continues span) => .error (.error ⟨.continueOutsideLoop, some span⟩)

/-- Runs code in an environment, which keeps the slots that the run leaves. -/
def runIn (e : Environment) (code : Code) : Evaluated × Environment :=
  match code e.setting e.slots with
  | .ok value slots => (conclude (.ok value), e.withSlots slots)
  | .error signal slots => (conclude (.error signal), e.withSlots slots)

/-- Evaluates once. The environment must use the registry that the expression was compiled
against. -/
def evaluate (x : Expression) (e : Environment) : Evaluated × Environment :=
  if e.setting.registry.identity ≠ x.registry then (.error (.error ⟨.registryMismatch, none⟩), e)
  else runIn e x.code

/-- Evaluates as a predicate: nothing is false, as is zero. -/
def evaluateTruth (x : Expression) (e : Environment) : Except Halt Bool × Environment :=
  let (result, e) := x.evaluate e
  (result.map (·.any Run.truth), e)

/-- Whether the expression reads or writes a variable. -/
def uses (x : Expression) (var : String) : Bool := x.vars.contains var

/-- How errors of a batch call an input that the expression does not use. -/
def inputName (x : Expression) (input : String) : String :=
  if x.uses input then input else "<input>"

/-- Assigns a row of values to the inputs. Inputs in front of a failing one stay assigned. -/
def bind (x : Expression) (e : Environment) (inputs : List String) (row : List Float) :
    Except Halt Unit × Environment :=
  if row.length ≠ inputs.length then
    (.error (.error ⟨.inputArity inputs.length row.length, none⟩), e)
  else go e (inputs.zip row)
where
  go (e : Environment) : List (String × Float) → Except Halt Unit × Environment
    | [] => (.ok (), e)
    | (input, v) :: rest =>
      match e.slots.assign input v with
      | .ok slots => go (e.withSlots slots) rest
      | .error error => (.error (.error ⟨error.fault (x.inputName input), none⟩), e)

/-- Binds a row and evaluates. -/
def evaluateRow (x : Expression) (e : Environment) (inputs : List String) (row : List Float) :
    Evaluated × Environment :=
  match x.bind e inputs row with
  | (.ok (), e) => x.evaluate e
  | (.error halt, e) => (.error halt, e)

/-- Evaluates the rows one after the other in one environment, up to the first failure. -/
def evaluateRows (x : Expression) (e : Environment) (inputs : List String) :
    List (List Float) → Except Halt (List (Option Float)) × Environment
  | [] => (.ok [], e)
  | row :: rest =>
    match x.evaluateRow e inputs row with
    | (.error halt, e) => (.error halt, e)
    | (.ok value, e) =>
      let (values, e) := x.evaluateRows e inputs rest
      (values.map (value :: ·), e)

/-- Evaluates every row in an environment of its own; the order of the rows is kept. -/
def evaluateApart (x : Expression) (e : Environment) (inputs : List String)
    (rows : List (List Float)) : Except Halt (List (Option Float)) :=
  rows.mapM fun row => (x.evaluateRow e inputs row).1

end Expression

end ShapeScript
