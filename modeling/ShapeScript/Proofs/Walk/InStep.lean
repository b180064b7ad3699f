import ShapeScript.Proofs.Compile.Meaning
import ShapeScript.Proofs.Compile.Folds
import ShapeScript.Proofs.Compile.Parts
import ShapeScript.Proofs.Walk.Roles

/-!
# Two walks of a tree in step

If the laws of a pairing hold for all nodes of a tree (`WalkLaws`), its walks in two settings are in
step (`WalkLaws.inStep`). The two walks may go by different scopes, so that a node may treat breaks
and continues differently in them. The laws ask node by node for what the node does itself: the
variables it names and writes, the faults it raises, and the signals that get out of it.
-/

namespace ShapeScript

/-- Laws for the walks of all nodes of a tree that stands in a scope: the left one goes by the scope
of the node, the right one by another one, and `signals` relates what gets out of a node. -/
structure WalkLaws (P : Pairing) (registry : Registry) (root : Tree) (outer : Scope)
    (other : Scope → Scope) (signals : Scope → Signal → Signal → Prop) : Prop where
  other_loopBody scope : other scope.loopBody = (other scope).loopBody
  other_switchBody scope : other scope.switchBody = (other scope).switchBody
  agree {t scope var s s'} : root.Holds outer t scope → t.named? = some var → P.slots s s' →
    s.slot? var = s'.slot? var
  write {t scope how var span s s' v} : root.Holds outer t scope → t.Writes registry how var span →
    P.slots s s' → how.Allows (s.slot? var) → P.slots (s.write var v) (s'.write var v)
  raises {t scope fault span} : root.Holds outer t scope → t.Raises registry P.left fault span →
    signals scope (.failsAt fault span) (.failsAt fault span)
  breakOut {span scope} : root.Holds outer (.breakOut span) scope →
    P.InStep (signals scope) (Run.breakOut scope span) (Run.breakOut (other scope) span)
  continueOn {span scope} : root.Holds outer (.continueOn span) scope →
    P.InStep (signals scope) (Run.continueOn scope span) (Run.continueOn (other scope) span)
  returns scope v : signals scope (.returns v) (.returns v)
  overruns scope : signals scope .overruns .overruns
  carry {scope e e'} last : signals scope e e' → signals scope (e.carry last) (e'.carry last)
  lap {scope e e'} : signals (Scope.loopBody scope) e e' →
    e.lap? = e'.lap? ∧ (e.lap? = none → signals scope e e')
  left {scope e e'} : signals (Scope.switchBody scope) e e' →
    e.left? = e'.left? ∧ (e.left? = none → signals scope e e')

namespace Pairing.InStep

variable {P : Pairing} {signals inner : Signal → Signal → Prop} {registry : Registry}
  {scope scope' : Scope}

private theorem optional {o : Option Tree}
    (parts : ∀ tree ∈ o, P.InStep signals (tree.walk registry scope) (tree.walk registry scope')) :
    Option.Rel (P.InStep signals) (walkOptional registry scope o)
      (walkOptional registry scope' o) := by
  rw [walkOptional_eq_map, walkOptional_eq_map]
  cases o with
  | none => exact .none
  | some tree => exact .some (parts tree rfl)

private theorem getD {o o' : Option Code} (h : Option.Rel (P.InStep signals) o o') :
    P.InStep signals (o.getD (pure none)) (o'.getD (pure none)) := by
  cases h with
  | none => exact .pure none
  | some h => exact h

private theorem forall₂_map {α : Type} {l : List α} {f f' : α → Code}
    (h : ∀ a ∈ l, P.InStep signals (f a) (f' a)) :
    List.Forall₂ (P.InStep signals) (l.map f) (l.map f') := by
  induction l with
  | nil => exact .nil
  | cons a rest ih => exact .cons (h a (.head _)) (ih fun a ha => h a (.tail _ ha))

private theorem select {labels labels' : List Code} (v : Float)
    (h : List.Forall₂ (P.InStep signals) labels labels') :
    P.InStep signals (Walk.select v labels) (Walk.select v labels') := by
  induction h with
  | nil => exact .pure 0
  | cons hlabel _ ih =>
    refine .bind hlabel fun value => ?_
    split
    · exact .pure 0
    · exact .bind ih fun skipped => .pure (skipped + 1)

private theorem switch {scrutinee scrutinee' : Code} {span : Span} {arms arms' : List (Code × Code)}
    {fallback fallback' : Option Code} (hscrutinee : P.InStep signals scrutinee scrutinee')
    (noValue : signals (.failsAt .noValue span) (.failsAt .noValue span))
    (hlabels : List.Forall₂ (P.InStep signals) (arms.map (·.1)) (arms'.map (·.1)))
    (hbodies : List.Forall₂ (P.InStep inner) (arms.map (·.2)) (arms'.map (·.2)))
    (hfallback : Option.Rel (P.InStep inner) fallback fallback')
    (same : ∀ {e e'}, inner e e' → e.left? = e'.left?)
    (outer : ∀ {e e'}, inner e e' → e.left? = none → signals e e') :
    P.InStep signals (Walk.switch scrutinee span arms fallback)
      (Walk.switch scrutinee' span arms' fallback') := by
  refine .bind (.required hscrutinee noValue) fun v => .bind (.select v hlabels) fun skipped => ?_
  refine .fallThrough (List.rel_append (List.forall₂_drop skipped hbodies) ?_) same outer none
  cases hfallback with
  | none => exact .nil
  | some h => exact .cons h .nil

end Pairing.InStep

namespace WalkLaws

open Pairing Compilation Compile

/-- If both walks go by the same scopes and end with the same signals, only the slots are left. -/
theorem of_slots {P : Pairing} {registry : Registry} {root : Tree} {outer : Scope}
    (agree : ∀ {t scope var s s'}, root.Holds outer t scope → t.named? = some var → P.slots s s' →
      s.slot? var = s'.slot? var)
    (write : ∀ {t scope how var span s s' v}, root.Holds outer t scope →
      t.Writes registry how var span → P.slots s s' → how.Allows (s.slot? var) →
        P.slots (s.write var v) (s'.write var v)) :
    WalkLaws P registry root outer id (fun _ => (· = ·)) where
  other_loopBody _ := rfl
  other_switchBody _ := rfl
  agree := agree
  write := write
  raises _ _ := rfl
  breakOut {span scope} _ := by
    rw [Run.breakOut, id_eq, Run.breakOut]
    split
    · exact .throw rfl
    · exact .failAt rfl
  continueOn {span scope} _ := by
    rw [Run.continueOn, id_eq, Run.continueOn]
    split
    · exact .throw rfl
    · exact .failAt rfl
  returns _ _ := rfl
  overruns _ := rfl
  carry last h := congrArg (Signal.carry last) h
  lap h := ⟨congrArg Signal.lap? h, fun _ => h⟩
  left h := ⟨congrArg Signal.left? h, fun _ => h⟩

variable {P : Pairing} {registry : Registry} {root : Tree} {outer : Scope}
  {other : Scope → Scope} {signals : Scope → Signal → Signal → Prop}
  (laws : WalkLaws P registry root outer other signals) {t : Tree} {scope : Scope}
include laws

private theorem carries {how : Write} {var : String} {span : Span}
    (held : root.Holds outer t scope) (h : t.Writes registry how var span) :
    P.Carries how var var where
  agree hs := by
    rcases h.named scope with named | ⟨part, hpart, named⟩
    · exact laws.agree held named hs
    · exact laws.agree (held.part_of hpart) named hs
  write hs allowed := laws.write held h hs allowed

private theorem arguments {span : Span} {function : String} {args : List Tree} {id : FunctionId}
    (held : root.Holds outer (.call span function args) scope)
    (resolved : registry.resolve? function args.length = some id)
    (parts : ∀ arg ∈ args,
      P.InStep (signals scope) (arg.walk registry scope) (arg.walk registry (other scope)))
    {rest : List Tree} {params : List ParamKind}
    (suffix : ∀ pair ∈ rest.zip params, pair ∈ args.zip (registry.params id))
    {scope' : Scope} {position : Nat} {t t' : Tally} {passed : List Run.Argument}
    (h : compileArguments registry scope' function position rest params t = .ok (passed, t')) :
    List.Forall₂ (P.ArgumentsInStep (signals scope)) (walkArguments registry scope rest params)
      (walkArguments registry (other scope) rest params) := by
  induction rest generalizing params position t passed with
  | nil =>
    rw [walkArguments.eq_def, walkArguments.eq_def]
    exact .nil
  | cons arg rest ih =>
    cases params with
    | nil =>
      rw [walkArguments.eq_def, walkArguments.eq_def]
      exact .nil
    | cons kind params =>
      have here := suffix _ (.head _)
      have behind : ∀ pair ∈ rest.zip params, pair ∈ args.zip (registry.params id) :=
        fun pair hpair => suffix pair (.tail _ hpair)
      cases kind with
      | value =>
        simp only [compileArguments, bind_ok, pure_ok] at h
        obtain ⟨c, _, hc, more, _, hmore, -, rfl⟩ := h
        have required : arg ∈ (Tree.call span function args).operands registry := by
          rw [Tree.operands, resolved]
          exact List.mem_map.mpr ⟨_, List.mem_filter.mpr ⟨here, rfl⟩, rfl⟩
        rw [walkArguments, walkArguments]
        refine .cons (.value ?_ (laws.raises held (.noValue required))) (ih behind hmore)
        exact parts arg (List.of_mem_zip here).1
      | reference =>
        rw [compileArguments] at h
        cases named : arg.var? with
        | none => simp only [named, refuse_ok] at h
        | some var =>
          have writes : (Tree.call span function args).Writes registry .bind var arg.span :=
            .reference resolved here named
          simp only [named, bind_ok, countNode_ok, touch_ok, pure_ok] at h
          obtain ⟨_, _, -, _, _, -, more, _, hmore, -, rfl⟩ := h
          rw [walkArguments, walkArguments]
          simp only [named]
          refine .cons (.reference (laws.carries held writes) ?_) (ih behind hmore)
          exact laws.raises held (.constant writes)

/-- What gets out of the body of a loop. -/
private theorem lapInStep {body body' : Code}
    (h : P.InStep (signals (Scope.loopBody scope)) body body') :
    P.InStep (signals scope) (Run.lap body) (Run.lap body') :=
  .lap h (fun he => (laws.lap he).1) fun he stays => (laws.lap he).2 stays

/-- The parts of a node, each in its scope, are in step with themselves. -/
private def PartsInStep (P : Pairing) (registry : Registry) (other : Scope → Scope)
    (signals : Scope → Signal → Signal → Prop) (t : Tree) (scope : Scope) : Prop :=
  ∀ {part inner}, (part, inner) ∈ t.parts scope →
    P.InStep (signals inner) (part.walk registry inner) (part.walk registry (other inner))

private theorem call {span : Span} {function : String} {args : List Tree}
    (held : root.Holds outer (.call span function args) scope)
    (compiles : (Tree.call span function args).Compiles registry)
    (part : PartsInStep P registry other signals (.call span function args) scope) :
    P.InStep (signals scope) ((Tree.call span function args).walk registry scope)
      ((Tree.call span function args).walk registry (other scope)) := by
  obtain ⟨_, _, _, _, h⟩ := compiles
  simp only [Tree.compile, bind_ok, pure_ok] at h
  obtain ⟨_, _, -, ⟨id, params⟩, _, hcallee, arguments, _, harguments, -, -⟩ := h
  obtain ⟨resolved, rfl, -⟩ := callee_ok.mp hcallee
  have passed := laws.arguments held resolved
    (fun arg harg => part (List.mem_map.mpr ⟨arg, harg, rfl⟩)) (fun _ h => h) harguments
  rw [Tree.walk, Tree.walk, Walk.call, Walk.call, resolved]
  exact .call passed (fun unknown => laws.raises held (.mismatch resolved unknown))
    (fun message => laws.raises held .failed) (laws.overruns scope)

private theorem forLoop {span : Span} {init cond update : Option Tree} {body : Tree}
    (held : root.Holds outer (.forLoop span init cond update body) scope)
    (part : PartsInStep P registry other signals (.forLoop span init cond update body) scope) :
    P.InStep (signals scope) ((Tree.forLoop span init cond update body).walk registry scope)
      ((Tree.forLoop span init cond update body).walk registry (other scope)) := by
  have header : ∀ tree ∈ init.toList ++ cond.toList ++ update.toList,
      P.InStep (signals scope) (tree.walk registry scope) (tree.walk registry (other scope)) := by
    intro tree h
    exact part (List.mem_append_left _ (List.mem_map_of_mem h))
  have start := InStep.optional (o := init) fun tree h => header tree (by simp_all)
  rw [Tree.walk, Tree.walk, ← laws.other_loopBody]
  refine .bind (.discard (.getD start)) fun _ => LoopsInStep.run ⟨rfl, ?_, ?_, ?_, ?_, ?_⟩
  · cases cond with
    | none => exact .pure true
    | some cond => exact .condition (header cond (by simp)) (laws.raises held (.noValue (.head _)))
  · cases update with
    | none => exact .pure ()
    | some update => exact .discard (header update (by simp))
  · exact laws.lapInStep (part (List.mem_append_right _ (.head _)))
  · exact laws.raises held (.timeout rfl)
  · exact laws.raises held (.limit rfl)

/-- Labels run in the scope of the switch body, but they fold, so no signal gets out of them. -/
private theorem switch {span : Span} {scrutinee : Tree} {arms : List Arm} {fallback : Option Tree}
    (held : root.Holds outer (.switch span scrutinee arms fallback) scope)
    (compiles : (Tree.switch span scrutinee arms fallback).Compiles registry)
    (part : PartsInStep P registry other signals (.switch span scrutinee arms fallback) scope) :
    P.InStep (signals scope) ((Tree.switch span scrutinee arms fallback).walk registry scope)
      ((Tree.switch span scrutinee arms fallback).walk registry (other scope)) := by
  obtain ⟨_, _, _, _, h⟩ := compiles
  simp only [Tree.compile, bind_ok, pure_ok] at h
  obtain ⟨_, _, -, _, _, -, ⟨taken, bodies⟩, _, harms, -⟩ := h
  have inside : ∀ tree ∈ arms.flatMap Arm.parts ++ fallback.toList,
      P.InStep (signals scope.switchBody) (tree.walk registry scope.switchBody)
        (tree.walk registry (other scope.switchBody)) := by
    intro tree h
    have mem := List.mem_map_of_mem (f := (·, scope.switchBody)) h
    exact part (.tail _ mem)
  rw [Tree.walk, Tree.walk, ← laws.other_switchBody]
  simp only [walkArms_eq_map]
  refine .switch (part (.head _)) (laws.raises held (.noValue (.head _))) ?_ ?_
    (InStep.optional ?_) (fun he => (laws.left he).1) fun he stays => (laws.left he).2 stays
  · rw [List.map_map, List.map_map]
    apply InStep.forall₂_map
    intro arm harm
    obtain ⟨label, body⟩ := arm
    obtain ⟨v, folds⟩ := Tree.folds_label_of_compileArms harms harm
    change P.InStep (signals scope) (label.walk registry scope.switchBody)
      (label.walk registry (other scope.switchBody))
    rw [folds.walk, folds.walk]
    exact .pure (some v)
  · rw [List.map_map, List.map_map]
    apply InStep.forall₂_map
    intro arm harm
    obtain ⟨label, body⟩ := arm
    have mem : body ∈ arms.flatMap Arm.parts := List.mem_flatMap.mpr ⟨_, harm, .tail _ (.head _)⟩
    exact inside body (List.mem_append_left _ mem)
  · intro tree h
    exact inside tree (List.mem_append_right _ (Option.mem_toList.mpr h))

/-- All nodes of a tree that compiles are in step with themselves. -/
theorem inStep (held : root.Holds outer t scope) (compiles : t.Compiles registry) :
    P.InStep (signals scope) (t.walk registry scope) (t.walk registry (other scope)) := by
  induction t, scope using Tree.induction_on_parts with
  | step t scope ih =>
  have part : PartsInStep P registry other signals t scope := by
    intro part inner hpart
    exact ih part inner hpart (held.part_of hpart) (compiles.part hpart)
  have noValue : ∀ {operand}, operand ∈ t.operands registry →
      signals scope (.failsAt .noValue operand.span) (.failsAt .noValue operand.span) :=
    fun h => laws.raises held (.noValue h)
  cases t with
  | literal span text =>
    rw [Tree.walk, Tree.walk]
    exact .pure _
  | ident span var =>
    rw [Tree.walk, Tree.walk]
    have read : P.InStep (signals scope) (Run.read var span) (Run.read var span) :=
      .read (laws.agree held rfl) (laws.raises held .unset)
    exact .bind read fun v => .pure (some v)
  | assign span op target value =>
    rw [Tree.walk, Tree.walk]
    cases named : target.var? with
    | none => exact .pure none
    | some var =>
      have writes : (Tree.assign span op target value).Writes registry _ var target.span :=
        .of_assign named
      have carries := laws.carries held writes
      have constant := laws.raises held (.constant writes)
      apply InStep.assignment (part (.tail _ (.head _))) (noValue (.head _)) carries constant
      intro compound
      rw [if_pos compound] at writes
      exact laws.raises held (.unsetTarget writes)
  | unary span op operand =>
    rw [Tree.walk, Tree.walk]
    cases effect : op.effect with
    | compute f =>
      apply InStep.compute (part (.head _))
      apply noValue
      rw [Tree.operands, effect]
      exact .head _
    | step delta =>
      cases named : operand.var? with
      | none => exact .pure none
      | some var =>
        have writes : (Tree.unary span op operand).Writes registry .update var operand.span :=
          .unary effect named
        have carries := laws.carries held writes
        have constant := laws.raises held (.constant writes)
        have unset := laws.raises held (.unsetTarget writes)
        exact .stepBefore carries constant unset delta
  | suffix span op operand =>
    rw [Tree.walk, Tree.walk]
    cases effect : op.effect with
    | compute f =>
      apply InStep.compute (part (.head _))
      apply noValue
      rw [Tree.operands, effect]
      exact .head _
    | step delta =>
      cases named : operand.var? with
      | none => exact .pure none
      | some var =>
        have writes : (Tree.suffix span op operand).Writes registry .update var operand.span :=
          .suffix effect named
        have carries := laws.carries held writes
        have constant := laws.raises held (.constant writes)
        have unset := laws.raises held (.unsetTarget writes)
        exact .stepAfter carries constant unset delta
  | binary span op left right =>
    rw [Tree.walk, Tree.walk]
    exact .binary op (part (.head _)) (part (.tail _ (.head _))) (noValue (.head _))
      (noValue (.tail _ (.head _)))
  | ternary span cond whenTrue whenFalse =>
    rw [Tree.walk, Tree.walk]
    exact .branch (part (.head _)) (part (.tail _ (.head _)))
      (part (.tail _ (.tail _ (.head _)))) (noValue (.head _))
  | call span function args => exact laws.call held compiles part
  | block span stmts =>
    rw [Tree.walk, Tree.walk, walkStatements_eq_map, walkStatements_eq_map]
    refine .block (InStep.forall₂_map ?_) laws.carry none
    intro stmt hstmt
    exact part (List.mem_map.mpr ⟨stmt, hstmt, rfl⟩)
  | statement span inner =>
    rw [Tree.walk, Tree.walk]
    exact part (.head _)
  | branch span cond whenTrue whenFalse =>
    rw [Tree.walk, Tree.walk]
    refine .branch (part (.head _)) (part (.tail _ (.head _))) (.getD (InStep.optional ?_))
      (noValue (.head _))
    intro tree h
    have mem := List.mem_map_of_mem (f := (·, scope)) (Option.mem_toList.mpr h)
    exact part (.tail _ (.tail _ mem))
  | whileLoop span cond body =>
    rw [Tree.walk, Tree.walk, ← laws.other_loopBody]
    have test := InStep.condition (part (.head _)) (noValue (.head _))
    have lap := laws.lapInStep (part (.tail _ (.head _)))
    exact LoopsInStep.run ⟨rfl, test, .pure (), lap, laws.raises held (.timeout rfl),
      laws.raises held (.limit rfl)⟩
  | doWhile span body cond =>
    rw [Tree.walk, Tree.walk, ← laws.other_loopBody]
    have test := InStep.condition (part (.tail _ (.head _))) (noValue (.head _))
    have lap := laws.lapInStep (part (.head _))
    exact LoopsInStep.runBodyFirst ⟨rfl, test, .pure (), lap, laws.raises held (.timeout rfl),
      laws.raises held (.limit rfl)⟩
  | forLoop span init cond update body => exact laws.forLoop held part
  | countedLoop span counter first last body =>
    rw [Tree.walk, Tree.walk, ← laws.other_loopBody]
    refine .bind (.required (part (.head _)) (noValue (.head _))) fun low => ?_
    refine .bind (.required (part (.tail _ (.head _))) (noValue (.tail _ (.head _)))) fun high => ?_
    refine CountedLoopsInStep.run ⟨?_, ?_, ?_, ?_, ?_, ?_⟩ low high
    · rfl
    · exact laws.carries held .counter
    · exact laws.lapInStep (part (.tail _ (.tail _ (.head _))))
    · exact laws.raises held (.constant .counter)
    · exact laws.raises held (.timeout rfl)
    · exact laws.raises held (.limit rfl)
  | switch span scrutinee arms fallback => exact laws.switch held compiles part
  | breakOut span =>
    rw [Tree.walk, Tree.walk]
    exact laws.breakOut held
  | continueOn span =>
    rw [Tree.walk, Tree.walk]
    exact laws.continueOn held
  | returnWith span value =>
    rw [Tree.walk, Tree.walk]
    refine .returnWith (InStep.optional ?_) (laws.returns scope)
    intro tree h
    exact part (List.mem_map.mpr ⟨tree, Option.mem_toList.mpr h, rfl⟩)

/-- What a node compiles to is in step with its walk by the other scope. -/
theorem code_inStep {tally tally' : Tally} {c : Compiled} (held : root.Holds outer t scope)
    (h : t.compile registry scope tally = .ok (c, tally')) :
    P.InStep (signals scope) c.code (t.walk registry (other scope)) := by
  rw [t.code_of_compile (.refl registry) scope _ _ _ h]
  exact laws.inStep held ⟨scope, _, _, _, h⟩

end WalkLaws

/-! ## Expressions -/

namespace Expression

variable {P : Pairing} {e e' : Environment} {code code' : Code}

/-- Runs in step that end with equal signals answer the same and leave related slots, or the left
one fails with a fault that cuts it short. -/
theorem runIn_inStep_or_cut (h : P.InStep (· = ·) code code') (left : e.setting = P.left)
    (right : e'.setting = P.right) (slots : P.slots e.slots e'.slots) :
    (∃ fault span, P.cut fault ∧ (runIn e code).1 = .error (.error ⟨fault, some span⟩)) ∨
      (runIn e code).1 = (runIn e' code').1 ∧
        P.slots (runIn e code).2.slots (runIn e' code').2.slots := by
  have ends := h e.slots e'.slots slots
  rw [runIn, runIn, left, right]
  generalize code P.left e.slots = r, code' P.right e'.slots = r' at ends
  cases ends with
  | ok hs => exact .inr ⟨rfl, hs⟩
  | error same hs =>
    cases same
    exact .inr ⟨rfl, hs⟩
  | cut hc => exact .inl ⟨_, _, hc, rfl⟩

theorem runIn_inStep (h : P.InStep (· = ·) code code') (uncut : ∀ fault, ¬P.cut fault)
    (left : e.setting = P.left) (right : e'.setting = P.right) (slots : P.slots e.slots e'.slots) :
    (runIn e code).1 = (runIn e' code').1 ∧
      P.slots (runIn e code).2.slots (runIn e' code').2.slots := by
  rcases runIn_inStep_or_cut h left right slots with ⟨fault, _, cut, -⟩ | same
  · exact absurd cut (uncut fault)
  · exact same

/-- An expression is in step with itself if the laws hold for its tree. -/
theorem code_inStep {registry : Registry} {tree : Tree} {x : Expression}
    {signals : Scope → Signal → Signal → Prop} (compiled : compile registry tree = .ok x)
    (laws : WalkLaws P registry tree .outermost id signals) :
    P.InStep (signals .outermost) x.code x.code := by
  obtain ⟨c, t, h, rfl⟩ := compile_ok.mp compiled
  have inStep := laws.code_inStep .self h
  rw [id_eq, ← tree.code_of_compile (.refl registry) .outermost _ _ _ h] at inStep
  exact inStep

end Expression

end ShapeScript
