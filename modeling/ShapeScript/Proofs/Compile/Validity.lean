import ShapeScript.Proofs.Compile.Parts
import ShapeScript.Proofs.Compile.Refusal

/-!
# Which trees compile

A tree compiles exactly if all its nodes are well formed, also those that are never reached
(`Expression.compile_iff_wellFormed`). What a node has to be besides its parts is `Tree.WellFormed`:
its number can be read, its call resolves, what it writes to is an identifier, and its labels fold
to different values. The table of a switch keeps keys instead of values, so the labels of its arms
are followed along the table (`Compile.Fresh`).
-/

namespace ShapeScript

open Compilation Compile

/-- What a node needs to compile besides its parts. A NaN differs from everything, so that any
number of labels may be NaN. -/
def Tree.WellFormed (registry : Registry) : Tree → Prop
  | .literal _ text => ∃ v, Literal.parse? text = some v
  | .assign _ _ target _ => ∃ var, target.var? = some var
  | .unary _ op operand => ∀ delta, op.effect = .step delta → ∃ var, operand.var? = some var
  | .suffix _ op operand => ∀ delta, op.effect = .step delta → ∃ var, operand.var? = some var
  | .call _ function args =>
    ∃ id, registry.resolve? function args.length = some id ∧
      ∀ arg, (arg, .reference) ∈ args.zip (registry.params id) → ∃ var, arg.var? = some var
  | .switch _ _ arms _ =>
    ∃ values, List.Forall₂ (fun arm v => arm.label.Folds v) arms values ∧
      values.Pairwise fun u v => (u == v) = false
  | _ => True

variable {registry : Registry} {scope : Scope} {t t' : Tally}

/-! ## Taken cases -/

namespace Compile

/-- No case that is taken has a value equal to this one. -/
def Untaken (taken : TakenCases) (v : Float) : Prop :=
  ∀ key, caseKey? v = some key → taken[key]? = none

variable {taken taken' : TakenCases} {v : Float} {position : Nat} {span : Span}

theorem untaken_of_takeCase (h : takeCase taken v position span t = .ok (taken', t')) :
    Untaken taken v := by
  intro key hkey
  rcases (takeCase_ok.mp h).1 with ⟨nan, -⟩ | ⟨key', hkey', free, -⟩
  · cases hkey.symm.trans nan
  · cases hkey.symm.trans hkey'
    exact free

/-- Taking a case leaves the values that differ from it. -/
theorem untaken_takeCase_iff (h : takeCase taken v position span t = .ok (taken', t')) {w : Float} :
    Untaken taken' w ↔ Untaken taken w ∧ (v == w) = false := by
  rw [← Bool.not_eq_true, beq_iff_caseKey?]
  rcases (takeCase_ok.mp h).1 with ⟨nan, rfl⟩ | ⟨key, hkey, -, rfl⟩
  · simp [nan]
  · simp only [Untaken, Std.TreeMap.getElem?_insert, Std.LawfulEqCmp.compare_eq_iff_eq, hkey,
      Option.some.injEq, exists_eq_left']
    have ne_of_differs : caseKey? w ≠ some key → ∀ key', caseKey? w = some key' → key ≠ key' := by
      rintro differs _ hw rfl
      exact differs hw
    constructor
    · intro untaken
      have differs : caseKey? w ≠ some key := fun hw => by simpa using untaken key hw
      refine ⟨fun key' hw => ?_, differs⟩
      rw [← untaken key' hw, if_neg (ne_of_differs differs key' hw)]
    · rintro ⟨untaken, differs⟩ key' hw
      rw [if_neg (ne_of_differs differs key' hw)]
      exact untaken key' hw

/-- The labels of the arms fold to different values, and no case taken before has one of them. -/
def Fresh (taken : TakenCases) (arms : List Arm) : Prop :=
  ∃ values, List.Forall₂ (fun arm v => arm.label.Folds v) arms values ∧
    values.Pairwise (fun u v => (u == v) = false) ∧ ∀ v ∈ values, Untaken taken v

/-- Once the first arm has taken its case, the others have to be fresh. -/
theorem fresh_cons_iff {label body : Tree} {rest : List Arm} (folds : label.Folds v)
    (h : takeCase taken v position span t = .ok (taken', t')) :
    Fresh taken (⟨label, body⟩ :: rest) ↔ Fresh taken' rest := by
  constructor
  · rintro ⟨_, labels, different, untaken⟩
    cases labels with
    | @cons _ _ _ values folds' labels =>
      cases folds.unique folds'
      obtain ⟨differs, different⟩ := List.pairwise_cons.mp different
      obtain ⟨-, untaken⟩ := List.forall_mem_cons.mp untaken
      refine ⟨values, labels, different, fun w mem => ?_⟩
      exact (untaken_takeCase_iff h).mpr ⟨untaken w mem, differs w mem⟩
  · rintro ⟨values, labels, different, untaken⟩
    have untaken := fun w mem => (untaken_takeCase_iff h).mp (untaken w mem)
    refine ⟨v :: values, .cons folds labels, .cons (fun w mem => (untaken w mem).2) different, ?_⟩
    exact List.forall_mem_cons.mpr ⟨untaken_of_takeCase h, fun w mem => (untaken w mem).1⟩

end Compile

/-! ## Nodes that compile -/

theorem fresh_of_compileArms {arms : List Arm} {position : Nat} {taken taken' : TakenCases}
    {bodies : List Code}
    (h : compileArms registry scope position taken arms t = .ok ((taken', bodies), t')) :
    Fresh taken arms := by
  induction arms generalizing position taken bodies t with
  | nil => exact ⟨[], .nil, .nil, nofun⟩
  | cons arm rest ih =>
    obtain ⟨label, body⟩ := arm
    obtain ⟨_, _, _, _, _, _, _, hlabel, hv, htaken, -, hrest, -⟩ := compileArms_cons_ok.mp h
    have folds := (Tree.constant?_eq_some_iff_folds hlabel).mp hv
    exact (fresh_cons_iff folds htaken).mpr (ih hrest)

theorem var?_of_compileArguments {function : String} {position : Nat} {args : List Tree}
    {params : List ParamKind} {passed : List Run.Argument} {arg : Tree}
    (h : compileArguments registry scope function position args params t = .ok (passed, t'))
    (mem : (arg, .reference) ∈ args.zip params) : ∃ var, arg.var? = some var := by
  induction args generalizing position params passed t t' with
  | nil => cases mem
  | cons first rest ih =>
    cases params with
    | nil => cases mem
    | cons kind params =>
      cases kind with
      | value =>
        simp only [compileArguments, bind_ok] at h
        obtain ⟨_, _, -, _, _, hrest, -⟩ := h
        cases mem with
        | tail _ mem => exact ih hrest mem
      | reference =>
        rw [compileArguments] at h
        cases named : first.var? with
        | none => simp only [named, refuse_ok] at h
        | some var =>
          simp only [named, bind_ok] at h
          obtain ⟨_, _, -, _, _, -, _, _, hrest, -⟩ := h
          cases mem with
          | head => exact ⟨var, named⟩
          | tail _ mem => exact ih hrest mem

namespace Tree

theorem CompilesIn.wellFormed {tree : Tree} (h : tree.CompilesIn registry scope) :
    tree.WellFormed registry := by
  obtain ⟨t, c, t', h⟩ := h
  cases tree with
  | literal span text =>
    simp only [compile, bind_ok] at h
    obtain ⟨_, _, -, h⟩ := h
    cases parsed : Literal.parse? text with
    | none => simp only [parsed, refuse_ok] at h
    | some v => exact ⟨v, parsed⟩
  | assign span op target value =>
    simp only [compile, bind_ok, target_ok] at h
    obtain ⟨_, _, -, var, _, ⟨named, -⟩, -⟩ := h
    exact ⟨var, named⟩
  | unary span op operand | suffix span op operand =>
    intro delta effect
    simp only [compile, effect, bind_ok, target_ok] at h
    obtain ⟨_, _, -, var, _, ⟨named, -⟩, -⟩ := h
    exact ⟨var, named⟩
  | call span function args =>
    simp only [compile, bind_ok] at h
    obtain ⟨_, _, -, ⟨id, params⟩, _, hcallee, _, _, harguments, -⟩ := h
    obtain ⟨resolved, rfl, -⟩ := callee_ok.mp hcallee
    exact ⟨id, resolved, fun _ mem => var?_of_compileArguments harguments mem⟩
  | switch span scrutinee arms fallback =>
    simp only [compile, bind_ok] at h
    obtain ⟨_, _, -, _, _, -, ⟨taken, bodies⟩, _, harms, -⟩ := h
    obtain ⟨values, labels, different, -⟩ := fresh_of_compileArms harms
    exact ⟨values, labels, different⟩
  | _ => trivial

end Tree

/-! ## Compiling what is well formed -/

/-- The compilation succeeds whatever has been noted before. -/
def Compilation.Succeeds {α : Type} (m : Compilation α) : Prop := ∀ t, ∃ a t', m t = .ok (a, t')

theorem exists_folds_of_mem {arms : List Arm} {values : List Float} {arm : Arm}
    (labels : List.Forall₂ (fun arm v => arm.label.Folds v) arms values) (mem : arm ∈ arms) :
    ∃ v ∈ values, arm.label.Folds v := by
  induction labels with
  | nil => cases mem
  | cons folds _ ih =>
    rcases List.mem_cons.mp mem with rfl | mem
    · exact ⟨_, .head _, folds⟩
    · obtain ⟨v, hv, folds⟩ := ih mem
      exact ⟨v, .tail _ hv, folds⟩

theorem pairwise_arms_of_values {arms : List Arm} {values : List Float}
    (labels : List.Forall₂ (fun arm v => arm.label.Folds v) arms values)
    (different : values.Pairwise fun u v => (u == v) = false) :
    arms.Pairwise fun arm arm' =>
      ∀ u v, arm.label.Folds u → arm'.label.Folds v → (u == v) = false := by
  induction labels with
  | nil => exact .nil
  | cons folds labels ih =>
    obtain ⟨differs, different⟩ := List.pairwise_cons.mp different
    refine .cons (fun arm' mem u v hu hv => ?_) (ih different)
    obtain ⟨w, hw, folds'⟩ := exists_folds_of_mem labels mem
    cases folds.unique hu
    cases folds'.unique hv
    exact differs _ hw

namespace Tree

/-- A well-formed node has no fault of its own. -/
theorem WellFormed.not_refuses {tree blamed : Tree} {fault : CompileFault} {notes : List Note}
    (wellFormed : tree.WellFormed registry) : ¬tree.Refuses registry fault blamed notes := by
  intro refuses
  cases refuses with
  | malformedNumber unreadable =>
    obtain ⟨v, parsed⟩ := wellFormed
    cases unreadable.symm.trans parsed
  | notAssignable target unnamed =>
    cases tree with
    | assign span op written value =>
      cases target
      obtain ⟨var, named⟩ := wellFormed
      cases unnamed.symm.trans named
    | unary span op operand | suffix span op operand =>
      obtain ⟨mutates, same⟩ := Option.ite_none_right_eq_some.mp target
      cases same
      obtain ⟨delta, effect⟩ := op.mutates_iff.mp mutates
      obtain ⟨var, named⟩ := wellFormed delta effect
      cases unnamed.symm.trans named
    | _ => cases target
  | unknownFunction unknown _ =>
    obtain ⟨id, resolved, -⟩ := wellFormed
    cases unknown.symm.trans resolved
  | @referenceArgument _ _ args id _ _ resolved arg kind unnamed =>
    obtain ⟨id', resolved', references⟩ := wellFormed
    have same : id' = id := Option.some.inj (resolved'.symm.trans resolved)
    subst id'
    have passed : (blamed, .reference) ∈ args.zip (registry.params id) :=
      List.mem_of_getElem? (List.getElem?_zip_eq_some.mpr ⟨arg, kind⟩)
    obtain ⟨var, named⟩ := references blamed passed
    cases unnamed.symm.trans named
  | caseLabelNotConstant mem unfolded =>
    obtain ⟨values, labels, -⟩ := wellFormed
    obtain ⟨v, -, folds⟩ := exists_folds_of_mem labels mem
    exact unfolded v folds
  | duplicateCase folds is_first =>
    obtain ⟨values, labels, different⟩ := wellFormed
    obtain ⟨before, after, rfl, ⟨w, folds', equal⟩, -⟩ := is_first
    obtain ⟨-, -, differ⟩ := List.pairwise_append.mp (pairwise_arms_of_values labels different)
    have differs := differ _ (List.mem_append_right _ (.head _)) _ (.head _) w _ folds' folds
    cases equal.symm.trans differs

/-- A tree of well-formed nodes compiles. -/
theorem succeeds_of_wellFormed {tree : Tree} (scope : Scope)
    (wellFormed : ∀ node inner, tree.Holds scope node inner → node.WellFormed registry) :
    (tree.compile registry scope).Succeeds := by
  have never : (tree.compile registry scope).FailsOnly fun _ => False :=
    failsOnly_of_nodes fun node inner held _ _ _ => (wellFormed node inner held).not_refuses
  intro t
  cases compiled : tree.compile registry scope t with
  | ok r => exact ⟨r.1, r.2, rfl⟩
  | error e => cases never t e compiled

end Tree

namespace Expression

/-- A tree compiles exactly if all its nodes are well formed. A node that compiles becomes a
constant exactly if it folds, and then it is the value that the node folds to. -/
theorem compile_iff_wellFormed (registry : Registry) (tree : Tree) :
    ((∃ x, compile registry tree = .ok x) ↔
      ∀ node scope, tree.Holds .outermost node scope → node.WellFormed registry) ∧
    ∀ (node : Tree) scope t c t', node.compile registry scope t = .ok (c, t') →
      ∀ v, c.constant? = some v ↔ node.Folds v := by
  refine ⟨⟨?_, ?_⟩, fun node scope t c t' h v => Tree.constant?_eq_some_iff_folds h⟩
  · rintro ⟨x, compiled⟩ node scope held
    obtain ⟨c, t, h, -⟩ := compile_ok.mp compiled
    exact (held.compilesIn ⟨_, _, _, h⟩).wellFormed
  · intro wellFormed
    obtain ⟨c, t, h⟩ := Tree.succeeds_of_wellFormed .outermost wellFormed .zero
    exact ⟨_, compile_ok.mpr ⟨c, t, h, rfl⟩⟩

/-- The labels are one and its negative, which folds. -/
theorem compile_iff_wellFormed_of_negative_label :
    let negative : Tree := .unary ⟨4, 6⟩ .negate (.literal ⟨5, 6⟩ "1")
    let tree : Tree := .switch ⟨0, 9⟩ (.ident ⟨0, 1⟩ "x")
      [⟨.literal ⟨2, 3⟩ "1", .breakOut ⟨3, 4⟩⟩, ⟨negative, .breakOut ⟨7, 8⟩⟩] none
    (∃ x, compile (.empty 0) tree = .ok x) ∧
      (∀ node scope, tree.Holds .outermost node scope → node.WellFormed (.empty 0)) ∧
      negative.Folds (-1) := by
  intro negative tree
  have accepted : ∃ x, compile (.empty 0) tree = .ok x := by
    have isOk : (compile (.empty 0) tree).isOk = true := by
      subst tree negative
      decide +kernel
    cases compiled : compile (.empty 0) tree with
    | ok x => exact ⟨x, rfl⟩
    | error error =>
      rw [compiled] at isOk
      cases isOk
  obtain ⟨accepts, folds⟩ := compile_iff_wellFormed (.empty 0) tree
  refine ⟨accepted, accepts.mp accepted, ?_⟩
  have constant : (negative.compile (.empty 0) .outermost .zero).map (·.1.constant?) =
      .ok (some (-1)) := by
    subst tree negative
    decide +kernel
  cases compiled : negative.compile (.empty 0) .outermost .zero with
  | ok r =>
    rw [compiled] at constant
    exact (folds _ _ _ _ _ compiled _).mp (Except.ok.inj constant)
  | error error =>
    rw [compiled] at constant
    cases constant

/-- Both zeros as labels of one switch are refused. -/
example :
    let zero : Arm := ⟨.literal ⟨2, 3⟩ "0", .breakOut ⟨3, 4⟩⟩
    let negative_zero : Arm := ⟨.literal ⟨5, 7⟩ "-0", .breakOut ⟨7, 8⟩⟩
    (compile (.empty 0) (.switch ⟨0, 9⟩ (.ident ⟨0, 1⟩ "x") [zero, negative_zero] none)).isOk =
      false := by
  decide +kernel

end Expression
end ShapeScript
