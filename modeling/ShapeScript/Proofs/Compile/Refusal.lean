import ShapeScript.Proofs.Function.Arities
import ShapeScript.Proofs.Compile.Cases
import ShapeScript.Proofs.Compile.Folds

/-!
# What a refused tree is blamed for

`Tree.Refuses` lists the faults that a node can have besides those of its parts, each with the node
that is to blame and with its notes. A compilation that fails reports such a fault of a node of the
tree, at the place of the node to blame (`Expression.refuses_of_compile`). Labels are compared with
the earlier ones of their switch through the table of cases, which leads back to the first equal
label (`Compile.Leads`).
-/

namespace ShapeScript

open Compilation Compile

/-- The notes list the arities that a name is registered with in ascending order, if it has any. In
a registry whose functions differ, each of them is listed once. -/
inductive Registry.Advises (registry : Registry) (function : String) : List Note → Prop where
  | nothing : (∀ n, registry.resolve? function n = none) → Advises registry function []
  | arities {arities : List Nat} : arities ≠ [] →
    (∀ n, n ∈ arities ↔ ∃ id, registry.resolve? function n = some id) →
    arities.Pairwise (· ≤ ·) → (registry.Distinct → arities.Pairwise (· < ·)) →
    Advises registry function [⟨"`" ++ function ++ "` takes " ++
      " or ".intercalate (arities.map toString) ++ " argument(s)", none⟩]

/-- The first of the arms whose label equals the value; all labels before it fold to others. -/
def Arm.IsFirst (v : Float) (arms : List Arm) (first : Arm) : Prop :=
  ∃ before after, arms = before ++ first :: after ∧
    (∃ w, first.label.Folds w ∧ (w == v) = true) ∧
    ∀ arm ∈ before, ∃ w, arm.label.Folds w ∧ (w == v) = false

namespace Tree

/-- What a node assigns to, with the symbol of the operator. -/
def target? : Tree → Option (String × Tree)
  | .assign _ op target _ => some (op.symbol, target)
  | .unary _ op operand => if op.mutates then some (op.symbol, operand) else none
  | .suffix _ op operand => if op.mutates then some (op.symbol, operand) else none
  | _ => none

/-- The first node has the fault, the second one is to blame for it. -/
inductive Refuses (registry : Registry) : Tree → CompileFault → Tree → List Note → Prop where
  | malformedNumber {span text} : Literal.parse? text = none →
    Refuses registry (.literal span text) (.malformedNumber text) (.literal span text) []
  | notAssignable {node symbol target} : node.target? = some (symbol, target) →
    target.var? = none → Refuses registry node (.notAssignable symbol) target []
  | unknownFunction {span function args notes} :
    registry.resolve? function args.length = none → registry.Advises function notes →
    Refuses registry (.call span function args) (.unknownFunction function args.length)
      (.call span function args) notes
  | referenceArgument {span function args id i arg} :
    registry.resolve? function args.length = some id → args[i]? = some arg →
    (registry.params id)[i]? = some .reference → arg.var? = none →
    Refuses registry (.call span function args) (.referenceArgument function (i + 1)) arg []
  | caseLabelNotConstant {span scrutinee arms fallback arm} : arm ∈ arms →
    (∀ v, ¬arm.label.Folds v) →
    Refuses registry (.switch span scrutinee arms fallback) .caseLabelNotConstant arm.label []
  | duplicateCase {span scrutinee before again after fallback first v} :
    again.label.Folds v → Arm.IsFirst v before first →
    Refuses registry (.switch span scrutinee (before ++ again :: after) fallback)
      (.duplicateCase v) again.label [⟨"first case with this value", some first.label.span⟩]

end Tree

/-- Whatever has been noted before, the compilation fails with such errors only. -/
def Compilation.FailsOnly {α : Type} (m : Compilation α) (P : CompileError → Prop) : Prop :=
  ∀ t e, m t = .error e → P e

variable {registry : Registry} {scope : Scope} {P : CompileError → Prop}

namespace Compilation.FailsOnly

variable {α β : Type} {m : Compilation α} {f : α → Compilation β}

/-- What comes next may count on the result that is there. -/
theorem bind_of_ok (hm : m.FailsOnly P)
    (hf : ∀ t a t', m t = .ok (a, t') → (f a).FailsOnly P) : (m >>= f).FailsOnly P := by
  intro t e h
  change (m t >>= fun (a, t₁) => f a t₁) = _ at h
  cases hm' : m t with
  | error e' =>
    rw [hm'] at h
    cases h
    exact hm t e hm'
  | ok r =>
    obtain ⟨a, t₁⟩ := r
    rw [hm'] at h
    exact hf t a t₁ hm' t₁ e h

theorem bind (hm : m.FailsOnly P) (hf : ∀ a, (f a).FailsOnly P) : (m >>= f).FailsOnly P :=
  hm.bind_of_ok fun _ a _ _ => hf a

theorem pure (a : α) : (Pure.pure a : Compilation α).FailsOnly P := nofun

theorem countNode : countNode.FailsOnly P := nofun

theorem touch (var : String) : (touch var).FailsOnly P := nofun

theorem refuse {fault : CompileFault} {span : Span} {notes : List Note}
    (h : P ⟨fault, span, notes⟩) : (refuse fault span notes : Compilation α).FailsOnly P := by
  intro t e failed
  cases failed
  exact h

theorem target {symbol : String} {tree : Tree}
    (own : tree.var? = none → P ⟨.notAssignable symbol, tree.span, []⟩) :
    (Compile.target symbol tree).FailsOnly P := by
  rw [Compile.target]
  cases named : tree.var? with
  | none => exact refuse (own named)
  | some var => exact countNode.bind fun _ => (touch var).bind fun _ => pure _

theorem callee {function : String} {arity : Nat} {span : Span}
    (own : registry.resolve? function arity = none →
      P ⟨.unknownFunction function arity, span, arityNotes registry function⟩) :
    (Compile.callee registry function arity span).FailsOnly P := by
  rw [Compile.callee]
  cases resolved : registry.resolve? function arity with
  | none => exact refuse (own resolved)
  | some id => exact pure _

theorem labelValue {label : Compiled} {span : Span}
    (own : label.constant? = none → P ⟨.caseLabelNotConstant, span, []⟩) :
    (Compile.labelValue label span).FailsOnly P := by
  rw [Compile.labelValue]
  cases constant : label.constant? with
  | none => exact refuse (own constant)
  | some v => exact pure _

theorem takeCase {taken : TakenCases} {v : Float} {position : Nat} {span : Span}
    (own : ∀ first, taken.first? v = some first →
      P ⟨.duplicateCase v, span, [⟨"first case with this value", some first.span⟩]⟩) :
    (Compile.takeCase taken v position span).FailsOnly P := by
  rw [Compile.takeCase]
  cases hkey : caseKey? v with
  | none => exact pure _
  | some key =>
    dsimp only
    cases held : taken[key]? with
    | none => exact pure _
    | some first => exact refuse (own first (by rw [TakenCases.first?, hkey]; exact held))

theorem optional {o : Option Tree}
    (parts : ∀ tree, o = some tree → (tree.compile registry scope).FailsOnly P) :
    (compileOptional registry scope o).FailsOnly P := by
  cases o with
  | none =>
    rw [compileOptional]
    exact pure _
  | some tree =>
    rw [compileOptional]
    exact (parts tree rfl).bind fun _ => pure _

theorem statements {stmts : List Tree} (exited : Bool)
    (parts : ∀ stmt ∈ stmts, (stmt.compile registry scope).FailsOnly P) :
    (compileStatements registry scope exited stmts).FailsOnly P := by
  induction stmts generalizing exited with
  | nil =>
    rw [compileStatements]
    exact pure _
  | cons stmt rest ih =>
    obtain ⟨first, parts⟩ := List.forall_mem_cons.mp parts
    rw [compileStatements]
    exact first.bind fun _ => (ih _ parts).bind fun _ => pure _

/-- The first argument has the given position. -/
theorem arguments {args : List Tree} {function : String} {position : Nat} {params : List ParamKind}
    (parts : ∀ arg ∈ args, (arg.compile registry scope).FailsOnly P)
    (own : ∀ i arg, args[i]? = some arg → params[i]? = some .reference → arg.var? = none →
      P ⟨.referenceArgument function (position + i), arg.span, []⟩) :
    (compileArguments registry scope function position args params).FailsOnly P := by
  induction args generalizing position params with
  | nil =>
    simp only [compileArguments]
    exact pure _
  | cons arg rest ih =>
    obtain ⟨first, parts⟩ := List.forall_mem_cons.mp parts
    cases params with
    | nil =>
      simp only [compileArguments]
      exact pure _
    | cons kind params =>
      have rest_fails : (compileArguments registry scope function (position + 1) rest
          params).FailsOnly P := by
        refine ih parts fun i arg harg kind named => ?_
        rw [Nat.add_right_comm, Nat.add_assoc]
        exact own (i + 1) arg harg kind named
      cases kind with
      | value =>
        rw [compileArguments]
        exact first.bind fun _ => rest_fails.bind fun _ => pure _
      | reference =>
        rw [compileArguments]
        cases named : arg.var? with
        | none => exact refuse (own 0 arg rfl rfl named)
        | some var =>
          exact countNode.bind fun _ => (touch var).bind fun _ => rest_fails.bind fun _ => pure _

end Compilation.FailsOnly

/-! ## Arms -/

/-- For every value the table leads to the first arm with an equal label. The labels of all these
arms fold. -/
def Compile.Leads (taken : TakenCases) (arms : List Arm) : Prop :=
  ∀ v, match taken.first? v with
    | some first => ∃ arm, Arm.IsFirst v arms arm ∧ first.span = arm.label.span
    | none => ∀ arm ∈ arms, ∃ w, arm.label.Folds w ∧ (w == v) = false

theorem Arm.IsFirst.append {v : Float} {arms : List Arm} {first : Arm}
    (h : Arm.IsFirst v arms first) (later : List Arm) : Arm.IsFirst v (arms ++ later) first := by
  obtain ⟨before, after, rfl, equal, differ⟩ := h
  exact ⟨before, after ++ later, by rw [List.append_assoc, List.cons_append], equal, differ⟩

theorem Compile.leads_empty : Leads ∅ [] := by
  intro v
  rw [first?_empty]
  exact nofun

/-- Taking the case of the next arm keeps the table in step with the arms. -/
theorem Compile.Leads.takeCase {taken taken' : TakenCases} {arms : List Arm} {arm : Arm} {v : Float}
    {position : Nat} {t t' : Tally} (leads : Leads taken arms) (folds : arm.label.Folds v)
    (h : Compile.takeCase taken v position arm.label.span t = .ok (taken', t')) :
    Leads taken' (arms ++ [arm]) := by
  intro w
  have known := leads w
  by_cases equal : (w == v) = true
  · have free : taken.first? w = none := first?_eq_none_of_takeCase h equal
    rw [free] at known
    rw [first?_takeCase_of_eq h equal]
    exact ⟨arm, ⟨arms, [], rfl, ⟨v, folds, BEq.symm equal⟩, known⟩, rfl⟩
  · rw [first?_takeCase_of_ne h equal]
    cases found : taken.first? w with
    | some first =>
      rw [found] at known
      obtain ⟨arm', first', same⟩ := known
      exact ⟨arm', first'.append [arm], same⟩
    | none =>
      rw [found] at known
      have differs : (v == w) = false := by
        rw [BEq.comm]
        exact Bool.not_eq_true _ ▸ equal
      refine List.forall_mem_append.mpr ⟨known, ?_⟩
      exact List.forall_mem_singleton.mpr ⟨v, folds, differs⟩

/-- Arms that come after others whose cases are taken. -/
theorem Compilation.FailsOnly.arms {before arms : List Arm} {taken : TakenCases} {position : Nat}
    (parts : ∀ part ∈ arms.flatMap Arm.parts, (part.compile registry scope).FailsOnly P)
    (notConstant : ∀ arm ∈ arms, (∀ v, ¬arm.label.Folds v) →
      P ⟨.caseLabelNotConstant, arm.label.span, []⟩)
    (duplicate : ∀ between again after first v, arms = between ++ again :: after →
      again.label.Folds v → Arm.IsFirst v (before ++ between) first →
      P ⟨.duplicateCase v, again.label.span,
        [⟨"first case with this value", some first.label.span⟩]⟩)
    (leads : Leads taken before) : (compileArms registry scope position taken arms).FailsOnly P := by
  induction arms generalizing before position taken with
  | nil =>
    rw [compileArms]
    exact pure _
  | cons arm rest ih =>
    obtain ⟨label, body⟩ := arm
    obtain ⟨label_fails, parts⟩ := List.forall_mem_cons.mp parts
    obtain ⟨body_fails, parts⟩ := List.forall_mem_cons.mp parts
    obtain ⟨label_not, notConstant⟩ := List.forall_mem_cons.mp notConstant
    rw [compileArms]
    refine label_fails.bind_of_ok fun _ lc _ hlabel => ?_
    have folds_iff : ∀ v, lc.constant? = some v ↔ label.Folds v := fun v =>
      Tree.constant?_eq_some_iff_folds hlabel
    refine (labelValue fun none => label_not fun v folds => ?_).bind_of_ok fun _ v _ hvalue => ?_
    · rw [(folds_iff v).mpr folds] at none
      cases none
    have folds : label.Folds v := (folds_iff v).mp (labelValue_ok.mp hvalue).1
    refine (takeCase fun first found => ?_).bind_of_ok fun _ taken' _ htaken => ?_
    · have known := leads v
      rw [found] at known
      obtain ⟨arm, is_first, same⟩ := known
      rw [← List.append_nil before] at is_first
      rw [same]
      exact duplicate [] ⟨label, body⟩ rest arm v rfl folds is_first
    refine body_fails.bind fun _ => ?_
    have rest_duplicate : ∀ between again after first v, rest = between ++ again :: after →
        again.label.Folds v → Arm.IsFirst v (before ++ [⟨label, body⟩] ++ between) first →
        P ⟨.duplicateCase v, again.label.span,
          [⟨"first case with this value", some first.label.span⟩]⟩ := by
      intro between again after first v split again_folds is_first
      rw [List.append_assoc] at is_first
      exact duplicate (⟨label, body⟩ :: between) again after first v (congrArg _ split) again_folds
        is_first
    have leads' : Leads taken' (before ++ [⟨label, body⟩]) := leads.takeCase folds htaken
    exact (ih parts notConstant rest_duplicate leads').bind fun _ => pure _

/-! ## Nodes -/

theorem Registry.advises_arityNotes (registry : Registry) (function : String) :
    registry.Advises function (arityNotes registry function) := by
  rw [arityNotes]
  split
  next none =>
    refine .nothing fun n => ?_
    refine Option.eq_none_iff_forall_ne_some.mpr fun id found => ?_
    have listed : n ∈ registry.arities function := mem_arities.mpr ⟨id, found⟩
    rw [none] at listed
    cases listed
  next some =>
    exact .arities (by simpa using some) (fun n => mem_arities) (pairwise_le_arities registry function)
      (·.pairwise_lt_arities function)

theorem UnaryOp.mutates_iff (op : UnaryOp) :
    op.mutates = true ↔ ∃ delta, op.effect = .step delta := by
  cases op <;> simp [mutates, effect]

theorem SuffixOp.mutates_iff (op : SuffixOp) :
    op.mutates = true ↔ ∃ delta, op.effect = .step delta := by
  cases op <;> simp [mutates, effect]

namespace Tree

/-- A node fails with an error of a part or with one of its own. -/
theorem failsOnly_compile {tree : Tree}
    (own : ∀ fault blamed notes, tree.Refuses registry fault blamed notes →
      P ⟨fault, blamed.span, notes⟩)
    (parts : ∀ part inner, (part, inner) ∈ tree.parts scope →
      (part.compile registry inner).FailsOnly P) : (tree.compile registry scope).FailsOnly P := by
  cases tree with
  | literal span text =>
    rw [compile]
    refine .bind .countNode fun _ => ?_
    cases parsed : Literal.parse? text with
    | none => exact .refuse (own _ _ _ (.malformedNumber parsed))
    | some v => exact .pure _
  | ident span var =>
    rw [compile]
    exact .bind .countNode fun _ => .bind (.touch var) fun _ => .pure _
  | assign span op target value =>
    have value_fails := parts _ _ (.tail _ (.head _))
    rw [compile]
    refine .bind .countNode fun _ => .bind (.target fun named => ?_) fun _ => ?_
    · exact own _ _ _ (.notAssignable rfl named)
    · exact value_fails.bind fun _ => .pure _
  | unary span op operand | suffix span op operand =>
    rw [compile]
    refine .bind .countNode fun _ => ?_
    cases effect : op.effect with
    | compute f => exact (parts _ _ (.head _)).bind fun _ => .pure _
    | step delta =>
      refine .bind (.target fun named => own _ _ _ (.notAssignable ?_ named)) fun _ => .pure _
      rw [target?, if_pos (op.mutates_iff.mpr ⟨delta, effect⟩)]
  | binary span op left right =>
    have left_fails := parts _ _ (.head _)
    have right_fails := parts _ _ (.tail _ (.head _))
    rw [compile]
    refine .bind .countNode fun _ => ?_
    exact left_fails.bind fun _ => right_fails.bind fun _ => .pure _
  | ternary span cond whenTrue whenFalse =>
    have cond_fails := parts _ _ (.head _)
    have true_fails := parts _ _ (.tail _ (.head _))
    have false_fails := parts _ _ (.tail _ (.tail _ (.head _)))
    rw [compile]
    refine .bind .countNode fun _ => cond_fails.bind fun _ => ?_
    exact true_fails.bind fun _ => false_fails.bind fun _ => .pure _
  | call span function args =>
    have args_fail : ∀ arg ∈ args, (arg.compile registry scope).FailsOnly P :=
      fun arg mem => parts arg scope (List.mem_map_of_mem mem)
    have unknown : registry.resolve? function args.length = none →
        P ⟨.unknownFunction function args.length, span, arityNotes registry function⟩ :=
      fun none => own _ _ _ (.unknownFunction none (registry.advises_arityNotes function))
    rw [compile]
    refine .bind .countNode fun _ => (FailsOnly.callee unknown).bind_of_ok fun _ found _ h => ?_
    obtain ⟨id, params⟩ := found
    obtain ⟨resolved, rfl, -⟩ := callee_ok.mp h
    refine (FailsOnly.arguments args_fail fun i arg harg kind named => ?_).bind fun _ => .pure _
    rw [Nat.add_comm]
    exact own _ _ _ (.referenceArgument resolved harg kind named)
  | block span stmts =>
    have stmts_fail : ∀ stmt ∈ stmts, (stmt.compile registry scope).FailsOnly P :=
      fun stmt mem => parts stmt scope (List.mem_map_of_mem mem)
    rw [compile]
    exact .bind .countNode fun _ => (FailsOnly.statements false stmts_fail).bind fun _ => .pure _
  | statement span inner =>
    rw [compile]
    exact .bind .countNode fun _ => parts _ _ (.head _)
  | branch span cond whenTrue whenFalse =>
    have cond_fails := parts _ _ (.head _)
    have true_fails := parts _ _ (.tail _ (.head _))
    have false_fails : (compileOptional registry scope whenFalse).FailsOnly P :=
      .optional fun tree some => parts _ _ (by simp [Tree.parts, some])
    rw [compile]
    refine .bind .countNode fun _ => cond_fails.bind fun _ => ?_
    exact true_fails.bind fun _ => false_fails.bind fun _ => .pure _
  | whileLoop span cond body =>
    have cond_fails := parts _ _ (.head _)
    have body_fails := parts _ _ (.tail _ (.head _))
    rw [compile]
    refine .bind .countNode fun _ => ?_
    exact cond_fails.bind fun _ => body_fails.bind fun _ => .pure _
  | doWhile span body cond =>
    have body_fails := parts _ _ (.head _)
    have cond_fails := parts _ _ (.tail _ (.head _))
    rw [compile]
    refine .bind .countNode fun _ => ?_
    exact body_fails.bind fun _ => cond_fails.bind fun _ => .pure _
  | forLoop span init cond update body =>
    have init_fails : (compileOptional registry scope init).FailsOnly P :=
      .optional fun tree some => parts _ _ (by simp [Tree.parts, some])
    have cond_fails : (compileOptional registry scope cond).FailsOnly P :=
      .optional fun tree some => parts _ _ (by simp [Tree.parts, some])
    have update_fails : (compileOptional registry scope update).FailsOnly P :=
      .optional fun tree some => parts _ _ (by simp [Tree.parts, some])
    have body_fails := parts body scope.loopBody (by simp [Tree.parts])
    rw [compile]
    refine .bind .countNode fun _ => init_fails.bind fun _ => cond_fails.bind fun _ => ?_
    exact update_fails.bind fun _ => body_fails.bind fun _ => .pure _
  | countedLoop span counter first last body =>
    have first_fails := parts _ _ (.head _)
    have last_fails := parts _ _ (.tail _ (.head _))
    have body_fails := parts _ _ (.tail _ (.tail _ (.head _)))
    rw [compile]
    refine .bind .countNode fun _ => .bind (.touch counter) fun _ => ?_
    refine first_fails.bind fun _ => last_fails.bind fun _ => ?_
    exact body_fails.bind fun _ => .pure _
  | switch span scrutinee arms fallback =>
    have scrutinee_fails := parts _ _ (.head _)
    have arms_fail : ∀ part ∈ arms.flatMap Arm.parts,
        (part.compile registry scope.switchBody).FailsOnly P := by
      intro part mem
      have mem : part ∈ arms.flatMap Arm.parts ++ fallback.toList := List.mem_append_left _ mem
      exact parts part scope.switchBody (.tail _ (List.mem_map.mpr ⟨part, mem, rfl⟩))
    have fallback_fails : (compileOptional registry scope.switchBody fallback).FailsOnly P :=
      .optional fun tree some => parts _ _ (by simp [Tree.parts, some])
    have notConstant : ∀ arm ∈ arms, (∀ v, ¬arm.label.Folds v) →
        P ⟨.caseLabelNotConstant, arm.label.span, []⟩ :=
      fun arm mem folds => own _ _ _ (.caseLabelNotConstant mem folds)
    have duplicate : ∀ before again after first v, arms = before ++ again :: after →
        again.label.Folds v → Arm.IsFirst v ([] ++ before) first →
        P ⟨.duplicateCase v, again.label.span,
          [⟨"first case with this value", some first.label.span⟩]⟩ := by
      rintro before again after first v rfl folds is_first
      exact own _ _ _ (.duplicateCase folds is_first)
    rw [compile]
    refine .bind .countNode fun _ => scrutinee_fails.bind fun _ => ?_
    refine (FailsOnly.arms arms_fail notConstant duplicate leads_empty).bind fun _ => ?_
    exact fallback_fails.bind fun _ => .pure _
  | breakOut span | continueOn span =>
    rw [compile]
    exact .bind .countNode fun _ => .pure _
  | returnWith span value =>
    have value_fails : (compileOptional registry scope value).FailsOnly P :=
      .optional fun tree some => parts _ _ (by simp [Tree.parts, some])
    rw [compile]
    exact .bind .countNode fun _ => value_fails.bind fun _ => .pure _

theorem label_mem_parts {arm : Arm} {arms : List Arm} (mem : arm ∈ arms) (scope : Scope)
    (span : Span) (scrutinee : Tree) (fallback : Option Tree) :
    (arm.label, scope.switchBody) ∈ (switch span scrutinee arms fallback).parts scope := by
  have own : arm.label ∈ arm.parts := by
    cases arm
    exact .head _
  have label : arm.label ∈ arms.flatMap Arm.parts ++ fallback.toList :=
    List.mem_append_left _ (List.mem_flatMap.mpr ⟨arm, mem, own⟩)
  exact .tail _ (List.mem_map.mpr ⟨_, label, rfl⟩)

/-- The node to blame is the node that has the fault or one of its parts. -/
theorem Refuses.self_or_part {node blamed : Tree} {fault : CompileFault} {notes : List Note}
    (h : node.Refuses registry fault blamed notes) (scope : Scope) :
    blamed = node ∨ ∃ inner, (blamed, inner) ∈ node.parts scope := by
  cases h with
  | malformedNumber _ | unknownFunction _ _ => exact .inl rfl
  | notAssignable target _ =>
    refine .inr ⟨scope, ?_⟩
    cases node with
    | assign span op written value =>
      cases target
      exact .head _
    | unary span op operand | suffix span op operand =>
      obtain ⟨-, same⟩ := Option.ite_none_right_eq_some.mp target
      cases same
      exact .head _
    | _ => cases target
  | referenceArgument _ arg _ _ =>
    exact .inr ⟨scope, List.mem_map_of_mem (List.mem_of_getElem? arg)⟩
  | caseLabelNotConstant mem _ => exact .inr ⟨_, label_mem_parts mem scope _ _ _⟩
  | duplicateCase _ _ =>
    exact .inr ⟨_, label_mem_parts (List.mem_append_right _ (.head _)) scope _ _ _⟩

/-- The errors of a tree are those of its nodes. -/
theorem failsOnly_of_nodes {tree : Tree}
    (own : ∀ node inner, tree.Holds scope node inner → ∀ fault blamed notes,
      node.Refuses registry fault blamed notes → P ⟨fault, blamed.span, notes⟩) :
    (tree.compile registry scope).FailsOnly P := by
  induction tree, scope using Tree.induction_on_parts with
  | step tree scope ih =>
    refine failsOnly_compile (own tree scope .self) fun part inner mem => ?_
    exact ih part inner mem fun node innermost held => own node innermost (.part mem held)

/-- The tree has a node with the fault of the error, which stands at the node to blame. -/
def HasFault (registry : Registry) (tree : Tree) (e : CompileError) : Prop :=
  ∃ node scope blamed inner, tree.Holds .outermost node scope ∧
    tree.Holds .outermost blamed inner ∧ node.Refuses registry e.fault blamed e.notes ∧
    blamed.span = e.span

end Tree

namespace Expression

/-- A tree is refused for a fault of one of its nodes. -/
theorem hasFault_of_compile_eq_error {registry : Registry} {tree : Tree} {e : CompileError}
    (refused : compile registry tree = .error e) : tree.HasFault registry e := by
  have failed : tree.compile registry .outermost .zero = .error e := by
    rw [compile, StateT.run] at refused
    cases compiled : tree.compile registry .outermost .zero with
    | error e' =>
      rw [compiled] at refused
      cases refused
      rfl
    | ok r =>
      rw [compiled] at refused
      cases refused
  have blames : (tree.compile registry .outermost).FailsOnly (tree.HasFault registry) := by
    refine Tree.failsOnly_of_nodes fun node scope held fault blamed notes refuses => ?_
    rcases refuses.self_or_part scope with rfl | ⟨inner, part⟩
    · exact ⟨blamed, scope, blamed, scope, held, held, refuses, rfl⟩
    · exact ⟨node, scope, blamed, inner, held, held.part_of part, refuses, rfl⟩
  exact blames _ _ failed

/-- Two labels are zeros; the label before them is not a number and takes no case. -/
theorem hasFault_of_compile_eq_error_of_zero_labels :
    let zero (start : UInt32) : Tree := .literal ⟨start, start + 1⟩ "0"
    let nan : Tree := .binary ⟨2, 5⟩ .div (zero 2) (zero 4)
    let negative_zero : Tree := .unary ⟨8, 10⟩ .negate (zero 9)
    let tree : Tree := .switch ⟨0, 12⟩ (.ident ⟨0, 1⟩ "x")
      [⟨nan, .breakOut ⟨5, 6⟩⟩, ⟨zero 6, .breakOut ⟨7, 8⟩⟩,
        ⟨negative_zero, .breakOut ⟨10, 11⟩⟩] none
    let e : CompileError :=
      ⟨.duplicateCase (-0), ⟨8, 10⟩, [⟨"first case with this value", some ⟨6, 7⟩⟩]⟩
    compile (.empty 0) tree = .error e ∧ tree.HasFault (.empty 0) e := by
  intro zero nan negative_zero tree e
  have refused : compile (.empty 0) tree = .error e := by
    have mapped : (compile (.empty 0) tree).map (fun _ => ()) = .error e := by
      subst tree negative_zero nan zero e
      decide +kernel
    cases compiled : compile (.empty 0) tree with
    | error e' =>
      rw [compiled] at mapped
      cases mapped
      rfl
    | ok x =>
      rw [compiled] at mapped
      cases mapped
  exact ⟨refused, hasFault_of_compile_eq_error refused⟩

end Expression
end ShapeScript
