import ShapeScript.Compile.Compiled
import ShapeScript.Syntax.Tree
import ShapeScript.Number.Literal

/-!
Compiling a tree.

Everything that does not depend on slots is done here once: literals are read, calls resolved,
targets and labels checked, and constant parts folded. Every node is checked, also statements that
are never reached and branches that are never taken.
-/

namespace ShapeScript

open Compilation

/-- A case that an earlier label of the same switch has taken. -/
structure TakenCase where
  position : Nat
  span : Span

/-- The cases of a switch by key. -/
abbrev TakenCases := Std.TreeMap UInt64 TakenCase

namespace Compile

/-- The variable that an operator assigns to; it counts as a node. -/
def target (symbol : String) (tree : Tree) : Compilation String :=
  match tree.var? with
  | some var => do
    countNode
    touch var
    return var
  | none => refuse (.notAssignable symbol) tree.span []

/-- The advice on a call that does not resolve: the arities that the name has. -/
def arityNotes (registry : Registry) (name : String) : List Note :=
  match registry.arities name with
  | [] => []
  | arities =>
    let choices := " or ".intercalate (arities.map toString)
    [⟨"`" ++ name ++ "` takes " ++ choices ++ " argument(s)", none⟩]

/-- The function that a call reaches. -/
def callee (registry : Registry) (name : String) (arity : Nat) (span : Span) :
    Compilation (FunctionId × List ParamKind) :=
  match registry.resolve? name arity with
  | some id => return (id, registry.params id)
  | none => refuse (.unknownFunction name arity) span (arityNotes registry name)

/-- Takes the key of a label, unless an equal label has it. A NaN label takes none. -/
def takeCase (taken : TakenCases) (value : Float) (position : Nat) (span : Span) :
    Compilation TakenCases :=
  match caseKey? value with
  | none => return taken
  | some key =>
    match taken[key]? with
    | some first =>
      refuse (.duplicateCase value) span [⟨"first case with this value", some first.span⟩]
    | none => return taken.insert key ⟨position, span⟩

/-- The value of a label, which has to fold. -/
def labelValue (label : Compiled) (span : Span) : Compilation Float :=
  match label.constant? with
  | some value => return value
  | none => refuse .caseLabelNotConstant span []

/-- The bounds are computed once, before the first iteration. -/
def countedLoop (loop : CountedLoop) (first : Code) (firstSpan : Span) (last : Code)
    (lastSpan : Span) : Compiled :=
  .dynamic do
    let first ← Run.required first firstSpan
    let last ← Run.required last lastSpan
    loop.run first last

end Compile

mutual

/-- Compiles a node in the given surroundings. -/
def Tree.compile (registry : Registry) (scope : Scope) : Tree → Compilation Compiled
  | .literal span text => do
    countNode
    match Literal.parse? text with
    | some value => return .constant value
    | none => refuse (.malformedNumber text) span []
  | .ident span var => do
    countNode
    touch var
    return .dynamic do return some (← Run.read var span)
  | .assign _ op target value => do
    countNode
    let var ← Compile.target op.symbol target
    let rhs ← value.compile registry scope
    return .dynamic (Run.assignment op var target.span rhs.code value.span)
  | .unary _ op operand => do
    countNode
    match op.effect with
    | .compute f => return (← operand.compile registry scope).compute f operand.span
    | .step delta =>
      let var ← Compile.target op.symbol operand
      return .dynamic (Run.stepBefore delta var operand.span)
  | .suffix _ op operand => do
    countNode
    match op.effect with
    | .compute f => return (← operand.compile registry scope).compute f operand.span
    | .step delta =>
      let var ← Compile.target op.symbol operand
      return .dynamic (Run.stepAfter delta var operand.span)
  | .binary _ op left right => do
    countNode
    let l ← left.compile registry scope
    let r ← right.compile registry scope
    return .binary op l left.span r right.span
  | .ternary _ cond whenTrue whenFalse => do
    countNode
    let test ← cond.compile registry scope
    let yes ← whenTrue.compile registry scope
    let no ← whenFalse.compile registry scope
    return .branch test cond.span yes no
  | .call span function args => do
    countNode
    let (id, params) ← Compile.callee registry function args.length span
    let arguments ← compileArguments registry scope function 1 args params
    return .dynamic (Run.call id function arguments span)
  | .block _ stmts => do
    countNode
    return .sequence (← compileStatements registry scope false stmts)
  | .statement _ inner => do
    countNode
    inner.compile registry scope
  | .branch _ cond whenTrue whenFalse => do
    countNode
    let test ← cond.compile registry scope
    let yes ← whenTrue.compile registry scope
    let no ← compileOptional registry scope whenFalse
    return .branch test cond.span yes (no.getD .nothing)
  | .whileLoop span cond body => do
    countNode
    let test ← cond.compile registry scope
    let lap ← body.compile registry scope.loopBody
    return .dynamic (Loop.run ⟨some (test.code, cond.span), none, lap.code, span⟩)
  | .doWhile span body cond => do
    countNode
    let lap ← body.compile registry scope.loopBody
    let test ← cond.compile registry scope
    return .dynamic (Loop.runBodyFirst ⟨some (test.code, cond.span), none, lap.code, span⟩)
  | .forLoop span init cond update body => do
    countNode
    let start ← compileOptional registry scope init
    let test ← compileOptional registry scope cond
    let next ← compileOptional registry scope update
    let lap ← body.compile registry scope.loopBody
    let condSpan := (cond.map Tree.span).getD .dummy
    let loop : Loop :=
      ⟨test.map fun t => (t.code, condSpan), next.map Compiled.code, lap.code, span⟩
    return .dynamic do
      if let some start := start then discard start.code
      loop.run
  | .countedLoop span counter first last body => do
    countNode
    touch counter
    let low ← first.compile registry scope
    let high ← last.compile registry scope
    let lap ← body.compile registry scope.loopBody
    return Compile.countedLoop ⟨counter, lap.code, span⟩ low.code first.span high.code last.span
  | .switch _ scrutinee arms fallback => do
    countNode
    let value ← scrutinee.compile registry scope
    let (taken, bodies) ← compileArms registry scope.switchBody 0 ∅ arms
    let last ← compileOptional registry scope.switchBody fallback
    let table : SwitchTable :=
      ⟨taken.map fun _ first => first.position, bodies, last.map Compiled.code⟩
    return .dynamic do table.dispatch (← Run.required value.code scrutinee.span)
  | .breakOut span => do
    countNode
    return .dynamic (Run.breakOut scope span)
  | .continueOn span => do
    countNode
    return .dynamic (Run.continueOn scope span)
  | .returnWith _ value => do
    countNode
    let value ← compileOptional registry scope value
    return .dynamic (Run.returnWith (value.map Compiled.code))

/-- Statements after one that always exits are checked and left out. -/
def compileStatements (registry : Registry) (scope : Scope) (exited : Bool) :
    List Tree → Compilation (List Compiled)
  | [] => return []
  | stmt :: rest => do
    let code ← stmt.compile registry scope
    let more ← compileStatements registry scope (exited || stmt.alwaysExits) rest
    return if exited then more else code :: more

def compileOptional (registry : Registry) (scope : Scope) :
    Option Tree → Compilation (Option Compiled)
  | none => return none
  | some tree => return some (← tree.compile registry scope)

/-- Arguments by their parameters; the first has the given position. -/
def compileArguments (registry : Registry) (scope : Scope) (function : String) (position : Nat) :
    List Tree → List ParamKind → Compilation (List Run.Argument)
  | arg :: args, .value :: params => do
    let value ← arg.compile registry scope
    let more ← compileArguments registry scope function (position + 1) args params
    return .value value.code arg.span :: more
  | arg :: args, .reference :: params => do
    match arg.var? with
    | some var =>
      countNode
      touch var
      let more ← compileArguments registry scope function (position + 1) args params
      return .reference var arg.span :: more
    | none => refuse (.referenceArgument function position) arg.span []
  | _, _ => return []

/-- Arms in order; the first has the given position. Answers all taken cases and the bodies. -/
def compileArms (registry : Registry) (scope : Scope) (position : Nat) (taken : TakenCases) :
    List Arm → Compilation (TakenCases × List Code)
  | [] => return (taken, [])
  | ⟨label, body⟩ :: rest => do
    let value ← Compile.labelValue (← label.compile registry scope) label.span
    let taken ← Compile.takeCase taken value position label.span
    let code ← body.compile registry scope
    let (taken, bodies) ← compileArms registry scope (position + 1) taken rest
    return (taken, code.code :: bodies)

end

end ShapeScript
