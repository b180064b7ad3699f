import ShapeScript.Syntax.Arena
import ShapeScript.Number.Shortest

/-!
Building trees step by step.

A step describes one node and refers to earlier steps by their place in the script. Steps that
carry no span of their own get one of a single byte at a fresh offset, so that a span tells which
node it belongs to.
-/

namespace ShapeScript

/-- An arena under construction and the interner of its names. -/
structure Workspace where
  arena : Arena
  interner : Interner

/-- Why a step could not be carried out. -/
inductive BuildError where
  | overflow (cause : Overflow)
  /-- A reference to a step that has not been made. -/
  | unknownStep
deriving DecidableEq, Repr

/-- What was built before a failure stays. -/
abbrev Build := EStateM BuildError Workspace

namespace Build

def intern (text : String) : Build Name := fun w =>
  let (name, interner) := w.interner.intern text
  .ok name { w with interner }

def addNode (node : Node) : Build NodeId := fun w =>
  match w.arena.addNode node with
  | (.ok id, arena) => .ok id { w with arena }
  | (.error cause, arena) => .error (.overflow cause) { w with arena }

def addRow (ids : List NodeId) : Build RowRange := fun w =>
  match w.arena.addRow ids with
  | (.ok range, arena) => .ok range { w with arena }
  | (.error cause, arena) => .error (.overflow cause) { w with arena }

def addCases (cases : List Case) : Build CaseRange := fun w =>
  match w.arena.addCases cases with
  | (.ok range, arena) => .ok range { w with arena }
  | (.error cause, arena) => .error (.overflow cause) { w with arena }

/-- Stores the name and the rows of a form, in this order. -/
def store : Form NodeId → Build (Shape Name NodeId RowRange CaseRange)
  | .block stmts => return .block (← addRow stmts)
  | .branch cond whenTrue whenFalse => return .branch cond whenTrue whenFalse
  | .whileLoop cond body => return .whileLoop cond body
  | .doWhile body cond => return .doWhile body cond
  | .forLoop init cond update body => return .forLoop init cond update body
  | .countedLoop counter first last body => return .countedLoop (← intern counter) first last body
  | .switch scrutinee arms fallback =>
    return .switch scrutinee (← addCases (arms.map fun (label, body) => ⟨label, body⟩)) fallback
  | .breakOut => return .breakOut
  | .continueOn => return .continueOn
  | .returnWith value => return .returnWith value
  | .statement inner => return .statement inner
  | .literal text => return .literal (← intern text)
  | .ident var => return .ident (← intern var)
  | .assign op target value => return .assign op target value
  | .unary op operand => return .unary op operand
  | .binary op left right => return .binary op left right
  | .ternary cond whenTrue whenFalse => return .ternary cond whenTrue whenFalse
  | .call function args => do
    let function ← intern function
    return .call function (← addRow args)
  | .suffix op operand => return .suffix op operand

/-- Adds a node at a span. -/
def place (form : Form NodeId) (span : Span) : Build NodeId := do
  addNode ⟨← store form, span⟩

/-- Adds a node at the given span, or else at the next fresh offset. -/
def add (span? : Option Span) (form : Form NodeId) : Build NodeId := fun w =>
  let offset := w.arena.size.toUInt32
  place form (span?.getD ⟨offset, offset + 1⟩) w

end Build

/-- One step of a script; references count steps. -/
inductive Step where
  | form (described : Form Nat)
  /-- A literal made from a number. -/
  | number (value : Float)
  /-- A plain assignment together with its target. -/
  | set (var : String) (value : Nat)
  /-- An assignment together with its target. -/
  | update (var : String) (op : AssignOp) (value : Nat)

namespace Step

/-- Carries out a step after the steps that made the given nodes. -/
def build (made : Array NodeId) (span? : Option Span) : Step → Build NodeId
  | .form described =>
    match described.resolve? (made[·]?) with
    | some node => Build.add span? node
    | none => throw .unknownStep
  | .number value => Build.add span? (.literal (Shortest.text value))
  | .set var value => update .assign var value
  | .update var op value => update op var value
where
  update (op : AssignOp) (var : String) (value : Nat) : Build NodeId :=
    match made[value]? with
    | some value => do
      let target ← Build.add span? (.ident var)
      Build.add span? (.assign op target value)
    | none => throw .unknownStep

/-- Carries out steps in order, each with the span it brings along, and answers the node that each
of them made last. -/
def buildAll (steps : List (Step × Option Span)) : Build (Array NodeId) :=
  go steps #[]
where
  go : List (Step × Option Span) → Array NodeId → Build (Array NodeId)
    | [], made => return made
    | (step, span?) :: rest, made => do
      let id ← step.build made span?
      go rest (made.push id)

end Step

end ShapeScript
