import ShapeScript.Syntax.Operator
import ShapeScript.Syntax.Span
import ShapeScript.Syntax.Interner

/-!
The nodes of a syntax tree.

`Shape` lists the kinds of nodes once, over the types that stand for names, for references to
other nodes, for rows of references and for rows of cases. A `Form` is a shape as its author
writes it: names are strings and rows are lists. A `Node.kind` is a shape as it is stored.
-/

namespace ShapeScript

/-- The kinds of nodes. The first eleven are statements, the others expressions; every node
evaluates to a number or to nothing. -/
inductive Shape (name ref row cases : Type) where
  /-- Statements in order, with the value of the last one. -/
  | block (stmts : row)
  | branch (cond whenTrue : ref) (whenFalse : Option ref)
  | whileLoop (cond body : ref)
  | doWhile (body cond : ref)
  /-- Without a condition the loop has no end of its own. -/
  | forLoop (init cond update : Option ref) (body : ref)
  /-- Counts up by one from the first bound to the last, included. -/
  | countedLoop (counter : name) (first last body : ref)
  | switch (scrutinee : ref) (arms : cases) (fallback : Option ref)
  | breakOut
  | continueOn
  | returnWith (value : Option ref)
  /-- An expression in the place of a statement. -/
  | statement (inner : ref)
  /-- A number, still as text. -/
  | literal (text : name)
  | ident (var : name)
  | assign (op : AssignOp) (target value : ref)
  | unary (op : UnaryOp) (operand : ref)
  | binary (op : BinaryOp) (left right : ref)
  | ternary (cond whenTrue whenFalse : ref)
  | call (function : name) (args : row)
  | suffix (op : SuffixOp) (operand : ref)
deriving DecidableEq, Repr

namespace Shape

variable {name ref row cases : Type}

def isStatement : Shape name ref row cases → Bool
  | block .. | branch .. | whileLoop .. | doWhile .. | forLoop .. | countedLoop .. | switch ..
  | breakOut | continueOn | returnWith .. | statement .. => true
  | _ => false

/-- Whether control never goes on to the next sibling. -/
def alwaysExits : Shape name ref row cases → Bool
  | breakOut | continueOn | returnWith .. => true
  | _ => false

end Shape

/-- The number of a stored node. -/
structure NodeId where
  index : Nat
deriving DecidableEq, Repr

/-- One arm of a switch, by reference. -/
structure Case where
  label : NodeId
  body : NodeId
deriving DecidableEq, Repr

/-- A stretch of the table of node rows. -/
structure RowRange where
  start : Nat
  length : Nat
deriving DecidableEq, Repr

namespace RowRange

def empty : RowRange := ⟨0, 0⟩

def isEmpty (r : RowRange) : Bool := r.length == 0

end RowRange

/-- A stretch of the table of cases. -/
structure CaseRange where
  start : Nat
  length : Nat
deriving DecidableEq, Repr

namespace CaseRange

def empty : CaseRange := ⟨0, 0⟩

def isEmpty (r : CaseRange) : Bool := r.length == 0

end CaseRange

/-- A node as it is stored, with its place in the source. -/
structure Node where
  kind : Shape Name NodeId RowRange CaseRange
  span : Span
deriving DecidableEq, Repr

/-- A node as its author writes it, with references of type `ref`. -/
abbrev Form (ref : Type) := Shape String ref (List ref) (List (ref × ref))

namespace Form

/-- Replaces each reference; fails if one has no replacement. -/
def resolve? {ref ref' : Type} (find? : ref → Option ref') : Form ref → Option (Form ref')
  | .block stmts => do return .block (← stmts.mapM find?)
  | .branch cond whenTrue whenFalse => do
    return .branch (← find? cond) (← find? whenTrue) (← whenFalse.mapM find?)
  | .whileLoop cond body => do return .whileLoop (← find? cond) (← find? body)
  | .doWhile body cond => do return .doWhile (← find? body) (← find? cond)
  | .forLoop init cond update body => do
    return .forLoop (← init.mapM find?) (← cond.mapM find?) (← update.mapM find?) (← find? body)
  | .countedLoop counter first last body => do
    return .countedLoop counter (← find? first) (← find? last) (← find? body)
  | .switch scrutinee arms fallback => do
    let arms ← arms.mapM fun (label, body) => do return (← find? label, ← find? body)
    return .switch (← find? scrutinee) arms (← fallback.mapM find?)
  | .breakOut => some .breakOut
  | .continueOn => some .continueOn
  | .returnWith value => do return .returnWith (← value.mapM find?)
  | .statement inner => do return .statement (← find? inner)
  | .literal text => some (.literal text)
  | .ident var => some (.ident var)
  | .assign op target value => do return .assign op (← find? target) (← find? value)
  | .unary op operand => do return .unary op (← find? operand)
  | .binary op left right => do return .binary op (← find? left) (← find? right)
  | .ternary cond whenTrue whenFalse => do
    return .ternary (← find? cond) (← find? whenTrue) (← find? whenFalse)
  | .call function args => do return .call function (← args.mapM find?)
  | .suffix op operand => do return .suffix op (← find? operand)

end Form

end ShapeScript
