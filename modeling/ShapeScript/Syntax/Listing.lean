import ShapeScript.Syntax.Arena

/-!
Listings of stored nodes: one line that names the kind of a node, its fields and its span.
-/

namespace ShapeScript.Listing

def name (n : Name) : String := s!"Name({n.index})"

def nodeId (id : NodeId) : String := s!"ExprId({id.index})"

/-- A name followed by labelled fields between braces. -/
def record (title : String) (fields : List (String × String)) : String :=
  title ++ " \x7b " ++ ", ".intercalate (fields.map fun (label, value) => label ++ ": " ++ value)
    ++ " \x7d"

def rowRange (r : RowRange) : String :=
  record "ExprRange" [("start", toString r.start), ("len", toString r.length)]

def caseRange (r : CaseRange) : String :=
  record "CaseRange" [("start", toString r.start), ("len", toString r.length)]

def optional : Option NodeId → String
  | none => "None"
  | some id => "Some(" ++ nodeId id ++ ")"

def kind : Shape Name NodeId RowRange CaseRange → String
  | .block stmts => "Block(" ++ rowRange stmts ++ ")"
  | .branch cond whenTrue whenFalse =>
    record "If" [("cond", nodeId cond), ("then_branch", nodeId whenTrue),
      ("else_branch", optional whenFalse)]
  | .whileLoop cond body => record "While" [("cond", nodeId cond), ("body", nodeId body)]
  | .doWhile body cond => record "DoWhile" [("body", nodeId body), ("cond", nodeId cond)]
  | .forLoop init cond update body =>
    record "For" [("init", optional init), ("cond", optional cond), ("update", optional update),
      ("body", nodeId body)]
  | .countedLoop counter first last body =>
    record "SimpleFor" [("counter", name counter), ("first", nodeId first), ("last", nodeId last),
      ("body", nodeId body)]
  | .switch scrutinee arms fallback =>
    record "Switch" [("scrutinee", nodeId scrutinee), ("cases", caseRange arms),
      ("default", optional fallback)]
  | .breakOut => "Break"
  | .continueOn => "Continue"
  | .returnWith value => "Return(" ++ optional value ++ ")"
  | .statement inner => "ExprStmt(" ++ nodeId inner ++ ")"
  | .literal text => "Constant(" ++ name text ++ ")"
  | .ident var => "Ident(" ++ name var ++ ")"
  | .assign op target value =>
    record "Assign" [("op", op.label), ("target", nodeId target), ("value", nodeId value)]
  | .unary op operand => record "Unary" [("op", op.label), ("operand", nodeId operand)]
  | .binary op left right =>
    record "Binary" [("op", op.label), ("left", nodeId left), ("right", nodeId right)]
  | .ternary cond whenTrue whenFalse =>
    record "Ternary" [("cond", nodeId cond), ("then_expr", nodeId whenTrue),
      ("else_expr", nodeId whenFalse)]
  | .call function args => record "Call" [("func", name function), ("args", rowRange args)]
  | .suffix op operand => record "Postfix" [("op", op.label), ("operand", nodeId operand)]

def node (n : Node) : String := kind n.kind ++ " @ " ++ n.span.text

end ShapeScript.Listing
