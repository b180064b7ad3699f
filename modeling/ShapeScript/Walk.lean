import ShapeScript.Expression

/-!
The plain meaning of a tree.

A walk visits the nodes of a tree each time that it comes to them. Nothing is computed beforehand,
no statement is left out, and a switch compares its labels one after the other. For a tree that
compiles, this is what the compiled code has to do. Where a tree breaks a rule that compiling
checks, a walk has no value.
-/

namespace ShapeScript

namespace Walk

/-- How many arms stand in front of the first one whose label equals a value. -/
def select (v : Float) : List Code → Run Nat
  | [] => return 0
  | label :: rest => do
    if (← label).any (v == ·) then return 0 else return (← select v rest) + 1

/-- Runs the bodies of labelled arms, from the selected one on, and the fallback last. -/
def switch (scrutinee : Code) (span : Span) (arms : List (Code × Code)) (fallback : Option Code) :
    Code := do
  let skipped ← select (← Run.required scrutinee span) (arms.map (·.1))
  Run.fallThrough ((arms.map (·.2)).drop skipped ++ fallback.toList) none

/-- Calls the function that a registry has for a name and arity. Its parameters say how the
arguments are passed. -/
def call (registry : Registry) (function : String) (arity : Nat)
    (arguments : List ParamKind → List Run.Argument) (span : Span) : Code :=
  match registry.resolve? function arity with
  | some id => Run.call id function (arguments (registry.params id)) span
  | none => return none

end Walk

mutual

/-- Runs a tree as it stands, with the functions of a registry. -/
def Tree.walk (registry : Registry) (scope : Scope) : Tree → Code
  | .literal _ text => return Literal.parse? text
  | .ident span var => return some (← Run.read var span)
  | .assign _ op target value =>
    match target.var? with
    | some var => Run.assignment op var target.span (value.walk registry scope) value.span
    | none => return none
  | .unary _ op operand =>
    match op.effect, operand.var? with
    | .compute f, _ => Run.compute f (operand.walk registry scope) operand.span
    | .step delta, some var => Run.stepBefore delta var operand.span
    | .step _, none => return none
  | .suffix _ op operand =>
    match op.effect, operand.var? with
    | .compute f, _ => Run.compute f (operand.walk registry scope) operand.span
    | .step delta, some var => Run.stepAfter delta var operand.span
    | .step _, none => return none
  | .binary _ op left right =>
    Run.binary op (left.walk registry scope) left.span (right.walk registry scope) right.span
  | .ternary _ cond whenTrue whenFalse =>
    Run.branch (cond.walk registry scope) cond.span (whenTrue.walk registry scope)
      (whenFalse.walk registry scope)
  | .call span function args =>
    Walk.call registry function args.length (walkArguments registry scope args) span
  | .block _ stmts => Run.block (walkStatements registry scope stmts) none
  | .statement _ inner => inner.walk registry scope
  | .branch _ cond whenTrue whenFalse =>
    Run.branch (cond.walk registry scope) cond.span (whenTrue.walk registry scope)
      ((walkOptional registry scope whenFalse).getD (pure none))
  | .whileLoop span cond body =>
    Loop.run ⟨some (cond.walk registry scope, cond.span), none, body.walk registry scope.loopBody,
      span⟩
  | .doWhile span body cond =>
    Loop.runBodyFirst ⟨some (cond.walk registry scope, cond.span), none,
      body.walk registry scope.loopBody, span⟩
  | .forLoop span init cond update body => do
    discard ((walkOptional registry scope init).getD (pure none))
    Loop.run ⟨(walkOptional registry scope cond).map fun c => (c, (cond.map Tree.span).getD .dummy),
      walkOptional registry scope update, body.walk registry scope.loopBody, span⟩
  | .countedLoop span counter first last body => do
    let low ← Run.required (first.walk registry scope) first.span
    let high ← Run.required (last.walk registry scope) last.span
    CountedLoop.run ⟨counter, body.walk registry scope.loopBody, span⟩ low high
  | .switch _ scrutinee arms fallback =>
    Walk.switch (scrutinee.walk registry scope) scrutinee.span
      (walkArms registry scope.switchBody arms) (walkOptional registry scope.switchBody fallback)
  | .breakOut span => Run.breakOut scope span
  | .continueOn span => Run.continueOn scope span
  | .returnWith _ value => Run.returnWith (walkOptional registry scope value)

def walkStatements (registry : Registry) (scope : Scope) : List Tree → List Code
  | [] => []
  | stmt :: rest => stmt.walk registry scope :: walkStatements registry scope rest

def walkOptional (registry : Registry) (scope : Scope) : Option Tree → Option Code
  | none => none
  | some tree => some (tree.walk registry scope)

/-- What is passed by reference has to be a variable. -/
def walkArguments (registry : Registry) (scope : Scope) :
    List Tree → List ParamKind → List Run.Argument
  | arg :: args, .value :: params =>
    .value (arg.walk registry scope) arg.span :: walkArguments registry scope args params
  | arg :: args, .reference :: params =>
    match arg.var? with
    | some var => .reference var arg.span :: walkArguments registry scope args params
    | none => .value (return none) arg.span :: walkArguments registry scope args params
  | _, _ => []

/-- Labels and bodies. -/
def walkArms (registry : Registry) (scope : Scope) : List Arm → List (Code × Code)
  | [] => []
  | ⟨label, body⟩ :: rest =>
    (label.walk registry scope, body.walk registry scope) :: walkArms registry scope rest

end

theorem walkStatements_eq_map (registry : Registry) (scope : Scope) (stmts : List Tree) :
    walkStatements registry scope stmts = stmts.map (·.walk registry scope) := by
  induction stmts with
  | nil => rw [walkStatements, List.map_nil]
  | cons stmt rest ih => rw [walkStatements, ih, List.map_cons]

theorem walkOptional_eq_map (registry : Registry) (scope : Scope) (o : Option Tree) :
    walkOptional registry scope o = o.map (·.walk registry scope) := by
  cases o <;> rw [walkOptional] <;> rfl

theorem walkArms_eq_map (registry : Registry) (scope : Scope) (arms : List Arm) :
    walkArms registry scope arms =
      arms.map fun ⟨label, body⟩ => (label.walk registry scope, body.walk registry scope) := by
  induction arms with
  | nil => rw [walkArms, List.map_nil]
  | cons arm rest ih =>
    cases arm
    rw [walkArms, ih, List.map_cons]

/-- Evaluates a tree by a walk with the functions of the environment. -/
def Tree.evaluate (tree : Tree) (e : Environment) : Evaluated × Environment :=
  Expression.runIn e (tree.walk e.setting.registry .outermost)

end ShapeScript
