import Mathlib.Data.List.Nodup
import ShapeScript.Proofs.Syntax.Parts
import ShapeScript.Proofs.Run.InStep
import ShapeScript.Proofs.Compile.Success

/-!
# Compiling does not depend on the names of variables

A tree with its variables renamed compiles as the tree itself does (`Tree.compile_rename`): with the
same error, or with as many nodes, with the same variables but for their names, and with code that
is in step if the slots are renamed too. The names are given by a function that can be undone on the
variables of the tree, and errors of the renamed code are read with the names undone
(`Signal.rename`).
-/

namespace ShapeScript

open Compilation Compile Pairing

/-! ## Renaming -/

mutual

/-- The tree with its variables renamed; functions and literals stay as they are. -/
def Tree.rename (ρ : String → String) : Tree → Tree
  | .block span stmts => .block span (renameAll ρ stmts)
  | .branch span cond whenTrue whenFalse =>
    .branch span (cond.rename ρ) (whenTrue.rename ρ) (renameOptional ρ whenFalse)
  | .whileLoop span cond body => .whileLoop span (cond.rename ρ) (body.rename ρ)
  | .doWhile span body cond => .doWhile span (body.rename ρ) (cond.rename ρ)
  | .forLoop span init cond update body =>
    .forLoop span (renameOptional ρ init) (renameOptional ρ cond) (renameOptional ρ update)
      (body.rename ρ)
  | .countedLoop span counter first last body =>
    .countedLoop span (ρ counter) (first.rename ρ) (last.rename ρ) (body.rename ρ)
  | .switch span scrutinee arms fallback =>
    .switch span (scrutinee.rename ρ) (renameArms ρ arms) (renameOptional ρ fallback)
  | .breakOut span => .breakOut span
  | .continueOn span => .continueOn span
  | .returnWith span value => .returnWith span (renameOptional ρ value)
  | .statement span inner => .statement span (inner.rename ρ)
  | .literal span text => .literal span text
  | .ident span var => .ident span (ρ var)
  | .assign span op target value => .assign span op (target.rename ρ) (value.rename ρ)
  | .unary span op operand => .unary span op (operand.rename ρ)
  | .binary span op left right => .binary span op (left.rename ρ) (right.rename ρ)
  | .ternary span cond whenTrue whenFalse =>
    .ternary span (cond.rename ρ) (whenTrue.rename ρ) (whenFalse.rename ρ)
  | .call span function args => .call span function (renameAll ρ args)
  | .suffix span op operand => .suffix span op (operand.rename ρ)

def renameAll (ρ : String → String) : List Tree → List Tree
  | [] => []
  | tree :: rest => tree.rename ρ :: renameAll ρ rest

def renameOptional (ρ : String → String) : Option Tree → Option Tree
  | none => none
  | some tree => some (tree.rename ρ)

def renameArms (ρ : String → String) : List Arm → List Arm
  | [] => []
  | ⟨label, body⟩ :: rest => ⟨label.rename ρ, body.rename ρ⟩ :: renameArms ρ rest

end

section
variable (ρ : String → String)

@[simp] theorem Tree.span_rename (tree : Tree) : (tree.rename ρ).span = tree.span := by
  cases tree <;> rw [Tree.rename] <;> rfl

theorem Tree.var?_rename (tree : Tree) : (tree.rename ρ).var? = tree.var?.map ρ := by
  cases tree <;> rw [Tree.rename] <;> rfl

theorem Tree.alwaysExits_rename (tree : Tree) : (tree.rename ρ).alwaysExits = tree.alwaysExits := by
  cases tree <;> rw [Tree.rename] <;> rfl

theorem length_renameAll (trees : List Tree) : (renameAll ρ trees).length = trees.length := by
  induction trees with
  | nil => rw [renameAll]
  | cons tree rest ih => rw [renameAll, List.length_cons, ih, List.length_cons]

end

/-- The fault with the variable that it names renamed. -/
def RunFault.rename (f : String → String) : RunFault → RunFault
  | .uninitializedVariable name => .uninitializedVariable (f name)
  | .constantReassignment name => .constantReassignment (f name)
  | fault => fault

/-- The signal with the variable that it names renamed. -/
def Signal.rename (f : String → String) : Signal → Signal
  | .fails error => .fails ⟨error.fault.rename f, error.span?⟩
  | signal => signal

/-- The second signal is the first one with other names. -/
abbrev RenamesTo (f : String → String) (e e' : Signal) : Prop := e.rename f = e'

namespace RenamesTo

variable {f : String → String} {e e' : Signal}

theorem carry (h : RenamesTo f e e') (last : Option Float) :
    RenamesTo f (e.carry last) (e'.carry last) := by
  subst h
  cases e <;> rfl

theorem lap (h : RenamesTo f e e') : e.lap? = e'.lap? := by
  subst h
  cases e <;> rfl

theorem left (h : RenamesTo f e e') : e.left? = e'.left? := by
  subst h
  cases e <;> rfl

end RenamesTo

/-- The runs of a pairing call a variable by different names: `ρ` renames it, and `f` undoes that. -/
structure Pairing.Renames (P : Pairing) (ρ f : String → String) (var : String) : Prop where
  carries how : P.Carries how (ρ var) var
  undone : f (ρ var) = var

namespace Pairing.Renames

variable {P : Pairing} {ρ f : String → String} {var : String} (h : P.Renames ρ f var) (span : Span)
include h

theorem unset : FailAlike (RenamesTo f) (.uninitializedVariable (ρ var)) (.uninitializedVariable var)
    span := by
  rw [FailAlike, RenamesTo, Signal.rename, RunFault.rename, h.undone]

theorem constant : FailAlike (RenamesTo f) (.constantReassignment (ρ var)) (.constantReassignment var)
    span := by
  rw [FailAlike, RenamesTo, Signal.rename, RunFault.rename, h.undone]

end Pairing.Renames

/-! ## Compiled nodes in step -/

/-- The same constant, or code in step. -/
inductive Compiled.InStep (P : Pairing) (signals : Signal → Signal → Prop) :
    Compiled → Compiled → Prop where
  | constant v : InStep P signals (.constant v) (.constant v)
  | dynamic {code code'} : P.InStep signals code code' →
    InStep P signals (.dynamic code) (.dynamic code')

namespace Compiled.InStep

variable {P : Pairing} {signals : Signal → Signal → Prop} {c c' d d' : Compiled}

theorem code (h : c.InStep P signals c') : P.InStep signals c.code c'.code := by
  cases h with
  | constant v => exact .pure (some v)
  | dynamic h => exact h

theorem constant?_eq (h : c.InStep P signals c') : c.constant? = c'.constant? := by
  cases h <;> rfl

variable (noValue : ∀ span, FailsAlike signals .noValue span)
include noValue

theorem compute (h : c.InStep P signals c') (f : Float → Float) (span : Span) :
    (Compiled.compute f c span).InStep P signals (Compiled.compute f c' span) := by
  cases h with
  | constant v => exact .constant (f v)
  | dynamic h => exact .dynamic (.compute h (noValue span) f)

theorem binary (h : c.InStep P signals c') (h' : d.InStep P signals d') (op : BinaryOp)
    (left right : Span) :
    (Compiled.binary op c left d right).InStep P signals (Compiled.binary op c' left d' right) := by
  have whole := Pairing.InStep.binary op h.code h'.code (noValue left) (noValue right)
  cases h with
  | constant v =>
    cases h' with
    | constant w =>
      simp only [Compiled.binary]
      exact .constant _
    | dynamic h' =>
      cases circuits : op.isShortCircuit with
      | true =>
        simp only [Compiled.binary, circuits]
        exact .dynamic whole
      | false =>
        simp only [Compiled.binary, circuits]
        exact .dynamic (.compute h' (noValue right) _)
  | dynamic h =>
    cases h' with
    | constant w =>
      cases circuits : op.isShortCircuit with
      | true =>
        simp only [Compiled.binary, circuits]
        exact .dynamic whole
      | false =>
        simp only [Compiled.binary, circuits]
        exact .dynamic (.compute h (noValue left) _)
    | dynamic h' =>
      cases circuits : op.isShortCircuit <;>
        simp only [Compiled.binary, circuits] <;> exact .dynamic whole

theorem branch {yes yes' no no' : Compiled} (h : c.InStep P signals c')
    (hyes : yes.InStep P signals yes') (hno : no.InStep P signals no') (span : Span) :
    (Compiled.branch c span yes no).InStep P signals (Compiled.branch c' span yes' no') := by
  cases h with
  | constant v =>
    rw [Compiled.branch, Compiled.branch]
    split
    · exact hyes
    · exact hno
  | dynamic h => exact .dynamic (.branch h hyes.code hno.code (noValue span))

end Compiled.InStep

theorem Compiled.InStep.sequence {P : Pairing} {signals : Signal → Signal → Prop}
    {codes codes' : List Compiled} (h : List.Forall₂ (Compiled.InStep P signals) codes codes')
    (carry : ∀ {e e'} last, signals e e' → signals (e.carry last) (e'.carry last)) :
    (Compiled.sequence codes).InStep P signals (Compiled.sequence codes') := by
  have inStep : ∀ {codes codes'}, List.Forall₂ (Compiled.InStep P signals) codes codes' →
      List.Forall₂ (P.InStep signals) (codes.map Compiled.code) (codes'.map Compiled.code) := by
    intro codes codes' h
    rw [List.forall₂_map_left_iff, List.forall₂_map_right_iff]
    exact h.imp fun _ _ h => h.code
  cases h with
  | nil => exact .dynamic (.pure none)
  | cons first rest =>
    cases rest with
    | nil => exact first
    | cons second rest => exact .dynamic (.block (inStep (.cons first (.cons second rest))) carry none)

/-! ## Compilations in step -/

/-- The tallies count as many nodes, and the names of the right one are those of the left one with
the renaming undone. -/
structure Tally.RenamesTo (ρ f : String → String) (t t' : Tally) : Prop where
  nodes : t.nodes = t'.nodes
  vars {name} : name ∈ t.vars ↔ ∃ var ∈ t'.vars, ρ var = name
  undone {var} : var ∈ t'.vars → f (ρ var) = var

theorem Tally.RenamesTo.zero (ρ f : String → String) : Tally.RenamesTo ρ f .zero .zero := by
  refine ⟨rfl, fun {name} => ?_, fun {var} noted => ?_⟩
  · simp [Tally.zero]
  · simp [Tally.zero] at noted

/-- With the renaming undone, the tallies have the same variables. -/
theorem Tally.RenamesTo.perm_vars {ρ f : String → String} {t t' : Tally} (h : t.RenamesTo ρ f t') :
    (t.vars.toList.map f).Perm t'.vars.toList := by
  have nodup : ∀ vars : Std.TreeSet String, vars.toList.Nodup := fun vars =>
    vars.distinct_toList.imp fun distinct same =>
      distinct (Std.LawfulEqCmp.compare_eq_iff_eq.mpr same)
  have undone_inj : ∀ name ∈ t.vars.toList, ∀ name' ∈ t.vars.toList, f name = f name' →
      name = name' := by
    intro name mem name' mem' same
    obtain ⟨var, noted, rfl⟩ := h.vars.mp (Std.TreeSet.mem_toList.mp mem)
    obtain ⟨var', noted', rfl⟩ := h.vars.mp (Std.TreeSet.mem_toList.mp mem')
    rw [h.undone noted, h.undone noted'] at same
    rw [same]
  have members : ∀ var, var ∈ t.vars.toList.map f ↔ var ∈ t'.vars.toList := by
    intro var
    simp only [List.mem_map, Std.TreeSet.mem_toList]
    constructor
    · rintro ⟨name, mem, rfl⟩
      obtain ⟨var, noted, rfl⟩ := h.vars.mp mem
      rwa [h.undone noted]
    · intro noted
      exact ⟨ρ var, h.vars.mpr ⟨var, noted, rfl⟩, h.undone noted⟩
  exact (List.perm_ext_iff_of_nodup (List.Nodup.map_on undone_inj (nodup _)) (nodup _)).mpr members

/-- In whatever order the variables come, sorting them gives the order of the set. -/
theorem mergeSort_eq_toList {names : List String} {vars : Std.TreeSet String}
    (perm : names.Perm vars.toList) :
    names.mergeSort (fun name name' => (compare name name').isLE) = vars.toList := by
  have ordered : vars.toList.Pairwise fun name name' => (compare name name').isLE = true :=
    Std.TreeSet.ordered_toList.imp fun less => by rw [less]; rfl
  have total : ∀ name name' : String,
      ((compare name name').isLE || (compare name' name).isLE) = true := by
    intro name name'
    rw [Std.OrientedOrd.eq_swap (a := name')]
    cases compare name name' <;> rfl
  have sorted := List.pairwise_mergeSort (fun _ _ _ => Std.TransCmp.isLE_trans) total names
  refine ((List.mergeSort_perm _ _).trans perm).eq_of_pairwise (fun name name' _ _ le ge => ?_) sorted
    ordered
  exact Std.LawfulEqCmp.compare_eq_iff_eq.mp (Std.OrientedCmp.isLE_antisymm le ge)

namespace Compilation

/-- Two ends of compiling fit: the same error, or results and tallies that do. -/
inductive Matches (ρ f : String → String) {α : Type} (same : α → α → Prop) :
    Except CompileError (α × Tally) → Except CompileError (α × Tally) → Prop where
  | ok {a a' t t'} : same a a' → t.RenamesTo ρ f t' → Matches ρ f same (.ok (a, t)) (.ok (a', t'))
  | error e : Matches ρ f same (.error e) (.error e)

/-- From tallies that fit, the ends of the two compilations fit. -/
def InStep (ρ f : String → String) {α : Type} (same : α → α → Prop) (m m' : Compilation α) : Prop :=
  ∀ t t', t.RenamesTo ρ f t' → Matches ρ f same (m t) (m' t')

namespace InStep

variable {ρ f : String → String} {α β : Type} {same : α → α → Prop} {same' : β → β → Prop}

protected theorem pure {a a' : α} (h : same a a') : InStep ρ f same (pure a) (pure a') :=
  fun _ _ tallies => .ok h tallies

protected theorem bind {m m' : Compilation α} {g g' : α → Compilation β}
    (h : InStep ρ f same m m') (hg : ∀ a a', same a a' → InStep ρ f same' (g a) (g' a')) :
    InStep ρ f same' (m >>= g) (m' >>= g') := by
  intro t t' tallies
  have ends := h t t' tallies
  change Matches ρ f same' (m t >>= fun (a, t) => g a t) (m' t' >>= fun (a, t) => g' a t)
  generalize m t = r, m' t' = r' at ends
  cases ends with
  | ok same tallies => exact hg _ _ same _ _ tallies
  | error e => exact .error e

protected theorem refuse (fault : CompileFault) (span : Span) (notes : List Note) :
    InStep ρ f same (refuse fault span notes) (refuse fault span notes) := fun _ _ _ => .error _

protected theorem countNode : InStep ρ f (fun _ _ => True) countNode countNode := by
  intro t t' tallies
  exact .ok trivial ⟨congrArg (· + 1) tallies.nodes, tallies.vars, tallies.undone⟩

protected theorem touch {var : String} (undone : f (ρ var) = var) :
    InStep ρ f (fun _ _ => True) (touch (ρ var)) (touch var) := by
  intro t t' tallies
  refine .ok trivial ⟨tallies.nodes, fun {name} => ?_, fun {name} mem => ?_⟩
  · simp only [Std.TreeSet.mem_insert, Std.LawfulEqCmp.compare_eq_iff_eq, tallies.vars, or_and_right,
      exists_or, exists_eq_left']
  · simp only [Std.TreeSet.mem_insert, Std.LawfulEqCmp.compare_eq_iff_eq] at mem
    rcases mem with rfl | before
    · exact undone
    · exact tallies.undone before

end InStep
end Compilation

/-! ## The steps of compiling -/

section
variable {P : Pairing} {ρ f : String → String} {registry : Registry} {scope : Scope}

/-- The tree and the tree with its variables renamed compile in step. -/
def Tree.CompilesInStep (P : Pairing) (ρ f : String → String) (registry : Registry) (tree : Tree)
    (scope : Scope) : Prop :=
  Compilation.InStep ρ f (Compiled.InStep P (RenamesTo f)) ((tree.rename ρ).compile registry scope)
    (tree.compile registry scope)

theorem target_inStep (symbol : String) {tree : Tree}
    (named : ∀ {var}, tree.var? = some var → P.Renames ρ f var) :
    Compilation.InStep ρ f (fun name var => name = ρ var ∧ P.Renames ρ f var)
      (target symbol (tree.rename ρ)) (target symbol tree) := by
  rw [target, target, Tree.var?_rename, Tree.span_rename]
  cases var : tree.var? with
  | none => exact .refuse _ _ _
  | some var =>
    have renames := named var
    exact .bind .countNode fun _ _ _ => .bind (.touch renames.undone) fun _ _ _ => .pure ⟨rfl, renames⟩

theorem callee_inStep (name : String) (arity : Nat) (span : Span) :
    Compilation.InStep ρ f (· = ·) (callee registry name arity span)
      (callee registry name arity span) := by
  rw [callee]
  cases registry.resolve? name arity with
  | none => exact .refuse _ _ _
  | some id => exact .pure rfl

theorem optional_inStep {o : Option Tree}
    (parts : ∀ tree ∈ o, tree.CompilesInStep P ρ f registry scope) :
    Compilation.InStep ρ f (Option.Rel (Compiled.InStep P (RenamesTo f)))
      (compileOptional registry scope (renameOptional ρ o)) (compileOptional registry scope o) := by
  cases o with
  | none =>
    rw [renameOptional, compileOptional]
    exact .pure .none
  | some tree =>
    rw [renameOptional, compileOptional, compileOptional]
    exact .bind (parts tree rfl) fun _ _ same => .pure (.some same)

theorem statements_inStep {stmts : List Tree} (exited : Bool)
    (parts : ∀ stmt ∈ stmts, stmt.CompilesInStep P ρ f registry scope) :
    Compilation.InStep ρ f (List.Forall₂ (Compiled.InStep P (RenamesTo f)))
      (compileStatements registry scope exited (renameAll ρ stmts))
      (compileStatements registry scope exited stmts) := by
  induction stmts generalizing exited with
  | nil =>
    rw [renameAll, compileStatements]
    exact .pure .nil
  | cons stmt rest ih =>
    rw [renameAll, compileStatements, compileStatements, Tree.alwaysExits_rename]
    refine .bind (parts stmt (.head _)) fun code code' same => ?_
    refine .bind (ih _ fun stmt mem => parts stmt (.tail _ mem)) fun more more' rest_same => .pure ?_
    split
    · exact rest_same
    · exact .cons same rest_same

theorem arguments_inStep {args : List Tree} (function : String) (position : Nat)
    (params : List ParamKind)
    (parts : ∀ arg ∈ args, arg.CompilesInStep P ρ f registry scope)
    (named : ∀ arg ∈ args, ∀ {var}, arg.var? = some var → P.Renames ρ f var) :
    Compilation.InStep ρ f (List.Forall₂ (P.ArgumentsInStep (RenamesTo f)))
      (compileArguments registry scope function position (renameAll ρ args) params)
      (compileArguments registry scope function position args params) := by
  induction args generalizing position params with
  | nil =>
    rw [renameAll, compileArguments.eq_def]
    exact .pure .nil
  | cons arg rest ih =>
    rw [renameAll]
    have rest_inStep := fun position params => ih position params
      (fun arg mem => parts arg (.tail _ mem)) fun arg mem => named arg (.tail _ mem)
    cases params with
    | nil =>
      rw [compileArguments.eq_def, compileArguments.eq_def]
      exact .pure .nil
    | cons kind params =>
      cases kind with
      | value =>
        rw [compileArguments, compileArguments, Tree.span_rename]
        refine .bind (parts arg (.head _)) fun c c' same => ?_
        exact .bind (rest_inStep _ _) fun more more' others => .pure (.cons (.value same.code rfl) others)
      | reference =>
        rw [compileArguments, compileArguments, Tree.var?_rename, Tree.span_rename]
        cases var : arg.var? with
        | none => exact .refuse _ _ _
        | some name =>
          have renames := named arg (.head _) var
          refine .bind .countNode fun _ _ _ => .bind (.touch renames.undone) fun _ _ _ => ?_
          exact .bind (rest_inStep _ _) fun more more' others =>
            .pure (.cons (.reference (renames.carries .bind) (renames.constant _)) others)

theorem labelValue_inStep {label label' : Compiled} (h : label.InStep P (RenamesTo f) label')
    (span : Span) :
    Compilation.InStep ρ f (· = ·) (labelValue label span) (labelValue label' span) := by
  rw [labelValue, labelValue, h.constant?_eq]
  cases label'.constant? with
  | none => exact .refuse _ _ _
  | some v => exact .pure rfl

theorem takeCase_inStep (taken : TakenCases) (v : Float) (position : Nat) (span : Span) :
    Compilation.InStep ρ f (· = ·) (takeCase taken v position span)
      (takeCase taken v position span) := by
  rw [takeCase]
  cases caseKey? v with
  | none => exact .pure rfl
  | some key =>
    dsimp only
    cases taken[key]? with
    | none => exact .pure rfl
    | some first => exact .refuse _ _ _

/-- The table of cases is the same, as labels have no variables. -/
theorem arms_inStep {arms : List Arm} (position : Nat) (taken : TakenCases)
    (parts : ∀ part ∈ arms.flatMap Arm.parts, part.CompilesInStep P ρ f registry scope) :
    Compilation.InStep ρ f
      (fun r r' => r.1 = r'.1 ∧ List.Forall₂ (P.InStep (RenamesTo f)) r.2 r'.2)
      (compileArms registry scope position taken (renameArms ρ arms))
      (compileArms registry scope position taken arms) := by
  induction arms generalizing position taken with
  | nil =>
    rw [renameArms, compileArms]
    exact .pure ⟨rfl, .nil⟩
  | cons arm rest ih =>
    obtain ⟨label, body⟩ := arm
    rw [renameArms, compileArms, compileArms, Tree.span_rename]
    have label_inStep := parts label (.head _)
    have body_inStep := parts body (.tail _ (.head _))
    have rest_inStep := fun position taken =>
      ih position taken fun part mem => parts part (List.mem_append_right _ mem)
    refine .bind label_inStep fun c c' same => ?_
    refine .bind (labelValue_inStep same _) fun v v' same => ?_
    subst same
    refine .bind (takeCase_inStep taken v position _) fun taken taken' same => ?_
    subst same
    refine .bind body_inStep fun body body' same => ?_
    refine .bind (rest_inStep _ _) fun r r' others => ?_
    exact .pure ⟨others.1, .cons same.code others.2⟩

/-- Tables with the same cases lead to bodies that are in step. -/
theorem dispatch_inStep {index : Std.TreeMap UInt64 Nat} {bodies bodies' : List Code}
    {last last' : Option Code} (hbodies : List.Forall₂ (P.InStep (RenamesTo f)) bodies bodies')
    (hlast : Option.Rel (P.InStep (RenamesTo f)) last last') (v : Float) :
    P.InStep (RenamesTo f) (SwitchTable.dispatch ⟨index, bodies, last⟩ v)
      (SwitchTable.dispatch ⟨index, bodies', last'⟩ v) := by
  have fallback : List.Forall₂ (P.InStep (RenamesTo f)) last.toList last'.toList := by
    cases hlast with
    | none => exact .nil
    | some h => exact .cons h .nil
  have tail : List.Forall₂ (P.InStep (RenamesTo f)) (SwitchTable.tail ⟨index, bodies, last⟩ v)
      (SwitchTable.tail ⟨index, bodies', last'⟩ v) := by
    rw [SwitchTable.tail, SwitchTable.tail]
    dsimp only
    cases (caseKey? v).bind fun key => index[key]? with
    | none => exact fallback
    | some position => exact List.rel_append (List.forall₂_drop position hbodies) fallback
  exact .fallThrough tail RenamesTo.left (fun same _ => same) none

/-- What the body of a loop does not take in gets out. -/
private theorem lap_inStep {body body' : Compiled} (h : body.InStep P (RenamesTo f) body') :
    P.InStep (RenamesTo f) (Run.lap body.code) (Run.lap body'.code) :=
  .lap h.code RenamesTo.lap fun same _ => same

/-- Optional parts, as code. -/
private theorem optionalCode_inStep {o o' : Option Compiled}
    (h : Option.Rel (Compiled.InStep P (RenamesTo f)) o o') :
    Option.Rel (P.InStep (RenamesTo f)) (o.map Compiled.code) (o'.map Compiled.code) := by
  cases h with
  | none => exact .none
  | some same => exact .some same.code

/-! ## The constructs -/

namespace Tree.CompilesInStep

private theorem call {span : Span} {function : String} {args : List Tree}
    (parts : ∀ arg ∈ args, arg.CompilesInStep P ρ f registry scope)
    (named : ∀ arg ∈ args, ∀ {var}, arg.var? = some var → P.Renames ρ f var) :
    (Tree.call span function args).CompilesInStep P ρ f registry scope := by
  rw [CompilesInStep, rename, Tree.compile, Tree.compile, length_renameAll]
  refine .bind .countNode fun _ _ _ => .bind (callee_inStep _ _ _) ?_
  rintro ⟨id, params⟩ _ rfl
  refine .bind (arguments_inStep function 1 params parts named) fun passed passed' same => ?_
  exact .pure (.dynamic (.call same (fun _ => rfl) (fun _ => rfl) rfl))

private theorem branch {span : Span} {cond whenTrue : Tree} {whenFalse : Option Tree}
    (hcond : cond.CompilesInStep P ρ f registry scope)
    (hyes : whenTrue.CompilesInStep P ρ f registry scope)
    (hno : ∀ tree ∈ whenFalse, tree.CompilesInStep P ρ f registry scope) :
    (Tree.branch span cond whenTrue whenFalse).CompilesInStep P ρ f registry scope := by
  rw [CompilesInStep, rename, Tree.compile, Tree.compile, span_rename]
  refine .bind .countNode fun _ _ _ => .bind hcond fun c c' cond_same => ?_
  refine .bind hyes fun yes yes' yes_same => ?_
  refine .bind (optional_inStep hno) fun no no' no_same => .pure ?_
  have noValue : ∀ span, FailsAlike (RenamesTo f) .noValue span := fun _ => rfl
  refine cond_same.branch noValue yes_same ?_ _
  cases no_same with
  | none => exact .dynamic (.pure none)
  | some same => exact same

private theorem forLoop {span : Span} {init cond update : Option Tree} {body : Tree}
    (hinit : ∀ tree ∈ init, tree.CompilesInStep P ρ f registry scope)
    (hcond : ∀ tree ∈ cond, tree.CompilesInStep P ρ f registry scope)
    (hupdate : ∀ tree ∈ update, tree.CompilesInStep P ρ f registry scope)
    (hbody : body.CompilesInStep P ρ f registry scope.loopBody) :
    (Tree.forLoop span init cond update body).CompilesInStep P ρ f registry scope := by
  have cond_span : ((renameOptional ρ cond).map Tree.span).getD .dummy =
      (cond.map Tree.span).getD .dummy := by
    cases cond with
    | none => rw [renameOptional]
    | some cond => rw [renameOptional, Option.map_some, span_rename, Option.map_some]
  rw [CompilesInStep, rename, Tree.compile, Tree.compile, cond_span]
  refine .bind .countNode fun _ _ _ => .bind (optional_inStep hinit) fun c c' start_same => ?_
  refine .bind (optional_inStep hcond) fun d d' cond_same => ?_
  refine .bind (optional_inStep hupdate) fun u u' next_same => ?_
  refine .bind hbody fun body body' body_same => .pure (.dynamic ?_)
  have loops : P.LoopsInStep (RenamesTo f)
      ⟨d.map fun t => (t.code, (cond.map Tree.span).getD .dummy), u.map Compiled.code, body.code, span⟩
      ⟨d'.map fun t => (t.code, (cond.map Tree.span).getD .dummy), u'.map Compiled.code,
        body'.code, span⟩ := by
    refine ⟨rfl, ?_, ?_, lap_inStep body_same, rfl, rfl⟩
    · cases cond_same with
      | none => exact .pure true
      | some same => exact .condition same.code rfl
    · cases next_same with
      | none => exact .pure ()
      | some same => exact .discard same.code
  cases start_same with
  | none => exact loops.run
  | some same => exact .bind (.discard same.code) fun _ => loops.run

private theorem countedLoop {span : Span} {counter : String} {first last body : Tree}
    (names : P.Renames ρ f counter) (hfirst : first.CompilesInStep P ρ f registry scope)
    (hlast : last.CompilesInStep P ρ f registry scope)
    (hbody : body.CompilesInStep P ρ f registry scope.loopBody) :
    (Tree.countedLoop span counter first last body).CompilesInStep P ρ f registry scope := by
  rw [CompilesInStep, rename, Tree.compile, Tree.compile, span_rename, span_rename]
  refine .bind .countNode fun _ _ _ => .bind (.touch names.undone) fun _ _ _ => ?_
  refine .bind hfirst fun low low' low_same => .bind hlast fun high high' high_same => ?_
  refine .bind hbody fun body body' body_same => .pure (.dynamic ?_)
  have loops : P.CountedLoopsInStep (RenamesTo f) ⟨ρ counter, body.code, span⟩
      ⟨counter, body'.code, span⟩ :=
    ⟨rfl, names.carries _, lap_inStep body_same, names.constant _, rfl, rfl⟩
  refine .bind (.required low_same.code rfl) fun low => ?_
  exact .bind (.required high_same.code rfl) fun high => loops.run low high

private theorem switch {span : Span} {scrutinee : Tree} {arms : List Arm} {fallback : Option Tree}
    (hscrutinee : scrutinee.CompilesInStep P ρ f registry scope)
    (harms : ∀ part ∈ arms.flatMap Arm.parts, part.CompilesInStep P ρ f registry scope.switchBody)
    (hfallback : ∀ tree ∈ fallback, tree.CompilesInStep P ρ f registry scope.switchBody) :
    (Tree.switch span scrutinee arms fallback).CompilesInStep P ρ f registry scope := by
  rw [CompilesInStep, rename, Tree.compile, Tree.compile, span_rename]
  refine .bind .countNode fun _ _ _ => .bind hscrutinee fun c c' value_same => ?_
  refine .bind (arms_inStep 0 ∅ harms) ?_
  rintro ⟨taken, bodies⟩ ⟨_, bodies'⟩ ⟨rfl, bodies_same⟩
  refine .bind (optional_inStep hfallback) fun d d' last_same => .pure (.dynamic ?_)
  refine .bind (.required value_same.code rfl) fun v => ?_
  exact dispatch_inStep bodies_same (optionalCode_inStep last_same) v

end Tree.CompilesInStep

/-- A tree with its variables renamed compiles in step with the tree. -/
theorem Tree.compile_rename (tree : Tree) (scope : Scope)
    (renames : ∀ {node inner var}, tree.Holds scope node inner → node.named? = some var →
      P.Renames ρ f var) : tree.CompilesInStep P ρ f registry scope := by
  induction tree, scope using Tree.induction_on_parts with
  | step tree scope ih =>
  have part : ∀ {part inner}, (part, inner) ∈ tree.parts scope →
      part.CompilesInStep P ρ f registry inner := fun {part inner} mem =>
    ih part inner mem fun held named => renames (.part mem held) named
  have target : ∀ {part inner}, (part, inner) ∈ tree.parts scope → ∀ {var}, part.var? = some var →
      P.Renames ρ f var := by
    intro part inner mem var named
    apply renames (.part mem .self)
    rw [eq_ident_of_var? named, named?]
  have noValue : ∀ span, FailsAlike (RenamesTo f) .noValue span := fun _ => rfl
  cases tree with
  | literal span text =>
    rw [CompilesInStep, rename, Tree.compile]
    refine .bind .countNode fun _ _ _ => ?_
    cases Literal.parse? text with
    | none => exact .refuse _ _ _
    | some value => exact .pure (.constant value)
  | ident span var =>
    have names := renames .self rfl
    rw [CompilesInStep, rename, Tree.compile, Tree.compile]
    refine .bind .countNode fun _ _ _ => .bind (.touch names.undone) fun _ _ _ => .pure (.dynamic ?_)
    exact .bind (.read (names.carries .bind).agree (names.unset span)) fun v => .pure (some v)
  | assign span op target' value =>
    rw [CompilesInStep, rename, Tree.compile, Tree.compile, span_rename, span_rename]
    refine .bind .countNode fun _ _ _ => .bind (target_inStep _ (target (.head _))) ?_
    rintro _ var ⟨rfl, names⟩
    refine .bind (part (.tail _ (.head _))) fun c c' same => .pure (.dynamic ?_)
    exact .assignment same.code rfl (names.carries _) (names.constant _) fun _ => names.unset _
  | unary span op operand =>
    rw [CompilesInStep, rename, Tree.compile, Tree.compile, span_rename]
    refine .bind .countNode fun _ _ _ => ?_
    cases op.effect with
    | compute g =>
      exact .bind (part (.head _)) fun c c' same => .pure (same.compute noValue g _)
    | step delta =>
      refine .bind (target_inStep _ (target (.head _))) ?_
      rintro _ var ⟨rfl, names⟩
      exact .pure (.dynamic (.stepBefore (names.carries _) (names.constant _) (names.unset _) delta))
  | suffix span op operand =>
    rw [CompilesInStep, rename, Tree.compile, Tree.compile, span_rename]
    refine .bind .countNode fun _ _ _ => ?_
    cases op.effect with
    | compute g =>
      exact .bind (part (.head _)) fun c c' same => .pure (same.compute noValue g _)
    | step delta =>
      refine .bind (target_inStep _ (target (.head _))) ?_
      rintro _ var ⟨rfl, names⟩
      exact .pure (.dynamic (.stepAfter (names.carries _) (names.constant _) (names.unset _) delta))
  | binary span op left right =>
    rw [CompilesInStep, rename, Tree.compile, Tree.compile, span_rename, span_rename]
    refine .bind .countNode fun _ _ _ => .bind (part (.head _)) fun l l' left_same => ?_
    refine .bind (part (.tail _ (.head _))) fun r r' right_same => .pure ?_
    exact left_same.binary noValue right_same op _ _
  | ternary span cond whenTrue whenFalse =>
    rw [CompilesInStep, rename, Tree.compile, Tree.compile, span_rename]
    refine .bind .countNode fun _ _ _ => .bind (part (.head _)) fun c c' cond_same => ?_
    refine .bind (part (.tail _ (.head _))) fun yes yes' yes_same => ?_
    refine .bind (part (.tail _ (.tail _ (.head _)))) fun no no' no_same => .pure ?_
    exact cond_same.branch noValue yes_same no_same _
  | call span function args =>
    have inside : ∀ arg ∈ args, (arg, scope) ∈ args.map (·, scope) := fun _ => List.mem_map_of_mem
    exact .call (fun arg mem => part (inside arg mem)) fun arg mem => target (inside arg mem)
  | block span stmts =>
    rw [CompilesInStep, rename, Tree.compile, Tree.compile]
    have inside : ∀ stmt ∈ stmts, stmt.CompilesInStep P ρ f registry scope :=
      fun _ mem => part (List.mem_map_of_mem mem)
    refine .bind .countNode fun _ _ _ => .bind (statements_inStep false inside) ?_
    exact fun codes codes' same => .pure (.sequence same fun last h => h.carry last)
  | statement span inner =>
    rw [CompilesInStep, rename, Tree.compile, Tree.compile]
    exact .bind .countNode fun _ _ _ => part (.head _)
  | branch span cond whenTrue whenFalse =>
    refine .branch (part (.head _)) (part (.tail _ (.head _))) fun tree mem => ?_
    have inside : (tree, scope) ∈ whenFalse.toList.map (·, scope) :=
      List.mem_map_of_mem (Option.mem_toList.mpr mem)
    exact part (.tail _ (.tail _ inside))
  | whileLoop span cond body =>
    rw [CompilesInStep, rename, Tree.compile, Tree.compile, span_rename]
    refine .bind .countNode fun _ _ _ => .bind (part (.head _)) fun c c' cond_same => ?_
    refine .bind (part (.tail _ (.head _))) fun body body' body_same => .pure (.dynamic ?_)
    exact LoopsInStep.run ⟨rfl, .condition cond_same.code rfl, .pure (), lap_inStep body_same, rfl, rfl⟩
  | doWhile span body cond =>
    rw [CompilesInStep, rename, Tree.compile, Tree.compile, span_rename]
    refine .bind .countNode fun _ _ _ => .bind (part (.head _)) fun body body' body_same => ?_
    refine .bind (part (.tail _ (.head _))) fun c c' cond_same => .pure (.dynamic ?_)
    exact LoopsInStep.runBodyFirst
      ⟨rfl, .condition cond_same.code rfl, .pure (), lap_inStep body_same, rfl, rfl⟩
  | forLoop span init cond update body =>
    have header : ∀ tree ∈ init.toList ++ cond.toList ++ update.toList,
        tree.CompilesInStep P ρ f registry scope :=
      fun _ mem => part (List.mem_append_left _ (List.mem_map_of_mem mem))
    simp only [List.mem_append, Option.mem_toList] at header
    exact .forLoop (fun tree mem => header tree (.inl (.inl mem)))
      (fun tree mem => header tree (.inl (.inr mem))) (fun tree mem => header tree (.inr mem))
      (part (List.mem_append_right _ (.head _)))
  | countedLoop span counter first last body =>
    exact .countedLoop (renames .self rfl) (part (.head _)) (part (.tail _ (.head _)))
      (part (.tail _ (.tail _ (.head _))))
  | switch span scrutinee arms fallback =>
    have inside : ∀ tree ∈ arms.flatMap Arm.parts ++ fallback.toList,
        tree.CompilesInStep P ρ f registry scope.switchBody :=
      fun _ mem => part (.tail _ (List.mem_map_of_mem (f := (·, scope.switchBody)) mem))
    exact .switch (part (.head _)) (fun tree mem => inside tree (List.mem_append_left _ mem))
      fun tree mem => inside tree (List.mem_append_right _ (Option.mem_toList.mpr mem))
  | breakOut span =>
    rw [CompilesInStep, rename, Tree.compile]
    refine .bind .countNode fun _ _ _ => .pure (.dynamic ?_)
    rw [Run.breakOut]
    split
    · exact .throw rfl
    · exact .failAt rfl
  | continueOn span =>
    rw [CompilesInStep, rename, Tree.compile]
    refine .bind .countNode fun _ _ _ => .pure (.dynamic ?_)
    rw [Run.continueOn]
    split
    · exact .throw rfl
    · exact .failAt rfl
  | returnWith span value =>
    rw [CompilesInStep, rename, Tree.compile, Tree.compile]
    have inside : ∀ tree ∈ value, tree.CompilesInStep P ρ f registry scope :=
      fun _ mem => part (List.mem_map_of_mem (Option.mem_toList.mpr mem))
    refine .bind .countNode fun _ _ _ => .bind (optional_inStep inside) fun c c' same => ?_
    exact .pure (.dynamic (.returnWith (optionalCode_inStep same) fun v => rfl))

end

end ShapeScript
