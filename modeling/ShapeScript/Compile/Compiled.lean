import Std.Data.TreeSet
import ShapeScript.Run.Exit
import ShapeScript.Run.Arithmetic
import ShapeScript.Run.Loop
import ShapeScript.Run.Switch
import ShapeScript.Run.Call

/-!
What a node compiles to, and what is noted on the way.
-/

namespace ShapeScript

/-- A compiled node: a number known beforehand, or code. -/
inductive Compiled where
  | constant (value : Float)
  | dynamic (code : Code)

namespace Compiled

def code : Compiled → Code
  | constant value => pure (some value)
  | dynamic code => code

def constant? : Compiled → Option Float
  | constant value => some value
  | dynamic _ => none

/-- Code without a value. -/
def nothing : Compiled := dynamic (pure none)

/-- Both operands known beforehand fold, also those of the logical operators. One known operand is
built into the other operators, which then run the unknown operand only. -/
def binary (op : BinaryOp) (left : Compiled) (leftSpan : Span) (right : Compiled)
    (rightSpan : Span) : Compiled :=
  match op.isShortCircuit, left, right with
  | _, constant l, constant r => constant (op.apply l r)
  | false, dynamic left, constant r => dynamic (Run.compute (op.apply · r) left leftSpan)
  | false, constant l, dynamic right => dynamic (Run.compute (op.apply l) right rightSpan)
  | _, left, right => dynamic (Run.binary op left.code leftSpan right.code rightSpan)

def compute (f : Float → Float) (operand : Compiled) (span : Span) : Compiled :=
  match operand with
  | constant v => constant (f v)
  | dynamic code => dynamic (Run.compute f code span)

/-- A condition known beforehand leaves one of the branches. -/
def branch (cond : Compiled) (condSpan : Span) (whenTrue whenFalse : Compiled) : Compiled :=
  match cond with
  | constant v => if Run.truth v then whenTrue else whenFalse
  | dynamic code => dynamic (Run.branch code condSpan whenTrue.code whenFalse.code)

/-- A single statement stands for itself. -/
def sequence : List Compiled → Compiled
  | [] => nothing
  | [single] => single
  | stmts => dynamic (Run.block (stmts.map code) none)

end Compiled

/-- How many nodes have been compiled and which variables they touch. -/
structure Tally where
  nodes : Nat
  vars : Std.TreeSet String

namespace Tally

def zero : Tally := ⟨0, ∅⟩

end Tally

/-- Compiling notes nodes and variables, and ends with the first fault. -/
abbrev Compilation := StateT Tally (Except CompileError)

namespace Compilation

def countNode : Compilation Unit :=
  modify fun t => { t with nodes := t.nodes + 1 }

def touch (var : String) : Compilation Unit :=
  modify fun t => { t with vars := t.vars.insert var }

def refuse {α : Type} (fault : CompileFault) (span : Span) (notes : List Note) : Compilation α :=
  throw ⟨fault, span, notes⟩

end Compilation

end ShapeScript
