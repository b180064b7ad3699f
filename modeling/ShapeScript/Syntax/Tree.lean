import ShapeScript.Syntax.Arena

/-!
Syntax trees unfolded from an arena: names are text again, children stand in place, and a node
that is used twice occurs twice.
-/

namespace ShapeScript

mutual

/-- A finite syntax tree; every node has its place in the source. -/
inductive Tree where
  | block (span : Span) (stmts : List Tree)
  | branch (span : Span) (cond whenTrue : Tree) (whenFalse : Option Tree)
  | whileLoop (span : Span) (cond body : Tree)
  | doWhile (span : Span) (body cond : Tree)
  | forLoop (span : Span) (init cond update : Option Tree) (body : Tree)
  | countedLoop (span : Span) (counter : String) (first last body : Tree)
  | switch (span : Span) (scrutinee : Tree) (arms : List Arm) (fallback : Option Tree)
  | breakOut (span : Span)
  | continueOn (span : Span)
  | returnWith (span : Span) (value : Option Tree)
  | statement (span : Span) (inner : Tree)
  | literal (span : Span) (text : String)
  | ident (span : Span) (var : String)
  | assign (span : Span) (op : AssignOp) (target value : Tree)
  | unary (span : Span) (op : UnaryOp) (operand : Tree)
  | binary (span : Span) (op : BinaryOp) (left right : Tree)
  | ternary (span : Span) (cond whenTrue whenFalse : Tree)
  | call (span : Span) (function : String) (args : List Tree)
  | suffix (span : Span) (op : SuffixOp) (operand : Tree)

/-- One arm of a switch: a label and the body it leads to. -/
inductive Arm where
  | mk (label body : Tree)

end

namespace Tree

def span : Tree → Span
  | block s .. | branch s .. | whileLoop s .. | doWhile s .. | forLoop s .. | countedLoop s ..
  | switch s .. | breakOut s | continueOn s | returnWith s .. | statement s .. | literal s ..
  | ident s .. | assign s .. | unary s .. | binary s .. | ternary s .. | call s ..
  | suffix s .. => s

/-- Whether control never goes on to the next sibling. -/
def alwaysExits : Tree → Bool
  | breakOut .. | continueOn .. | returnWith .. => true
  | _ => false

/-- The variable that a tree names, if it is nothing but an identifier. -/
def var? : Tree → Option String
  | ident _ var => some var
  | _ => none

end Tree

namespace Arena

/-- Unfolds a node, with paths of at most `depth` nodes. There is no tree if a path is longer, if
a reference leads nowhere or if a name has no text. -/
def unfoldTo? (a : Arena) (interner : Interner) : (depth : Nat) → NodeId → Option Tree
  | 0, _ => none
  | depth + 1, id => do
    let node ← a.node? id
    let span := node.span
    let child := a.unfoldTo? interner depth
    match node.kind with
    | .block stmts => return .block span (← (← a.row? stmts).mapM child)
    | .branch cond whenTrue whenFalse =>
      return .branch span (← child cond) (← child whenTrue) (← whenFalse.mapM child)
    | .whileLoop cond body => return .whileLoop span (← child cond) (← child body)
    | .doWhile body cond => return .doWhile span (← child body) (← child cond)
    | .forLoop init cond update body =>
      return .forLoop span (← init.mapM child) (← cond.mapM child) (← update.mapM child)
        (← child body)
    | .countedLoop counter first last body =>
      return .countedLoop span (← interner.text? counter) (← child first) (← child last)
        (← child body)
    | .switch scrutinee arms fallback =>
      let arms ← (← a.cases? arms).mapM fun arm => do
        return Arm.mk (← child arm.label) (← child arm.body)
      return .switch span (← child scrutinee) arms (← fallback.mapM child)
    | .breakOut => return .breakOut span
    | .continueOn => return .continueOn span
    | .returnWith value => return .returnWith span (← value.mapM child)
    | .statement inner => return .statement span (← child inner)
    | .literal text => return .literal span (← interner.text? text)
    | .ident var => return .ident span (← interner.text? var)
    | .assign op target value => return .assign span op (← child target) (← child value)
    | .unary op operand => return .unary span op (← child operand)
    | .binary op left right => return .binary span op (← child left) (← child right)
    | .ternary cond whenTrue whenFalse =>
      return .ternary span (← child cond) (← child whenTrue) (← child whenFalse)
    | .call function args =>
      return .call span (← interner.text? function) (← (← a.row? args).mapM child)
    | .suffix op operand => return .suffix span op (← child operand)

/-- The tree under a node. No path without a cycle is longer than there are nodes. -/
def tree? (a : Arena) (interner : Interner) (root : NodeId) : Option Tree :=
  a.unfoldTo? interner a.size root

end Arena

end ShapeScript
