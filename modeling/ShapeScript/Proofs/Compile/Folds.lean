import ShapeScript.Walk
import ShapeScript.Proofs.Syntax.Parts
import ShapeScript.Proofs.Compile.Success
import ShapeScript.Proofs.Compile.Folding

/-!
# Trees that fold

`Tree.Folds` says which trees have a value that is known beforehand, whatever is around them. A tree
that compiles becomes a constant exactly if it folds (`Tree.constant?_eq_some_iff_folds`), and the
walk of a tree that folds has that value and does nothing else (`Tree.Folds.walk`).
-/

namespace ShapeScript

open Compilation Compile

/-- The tree has a value that does not depend on anything. -/
inductive Tree.Folds : Tree → Float → Prop where
  | literal {span text v} : Literal.parse? text = some v → Folds (.literal span text) v
  | unary {span op f operand v} : op.effect = .compute f → Folds operand v →
    Folds (.unary span op operand) (f v)
  | suffix {span op f operand v} : op.effect = .compute f → Folds operand v →
    Folds (.suffix span op operand) (f v)
  | binary {span op left right l r} : Folds left l → Folds right r →
    Folds (.binary span op left right) (op.apply l r)
  | ternary {span cond whenTrue whenFalse u v} : Folds cond u →
    Folds (if Run.truth u then whenTrue else whenFalse) v →
    Folds (.ternary span cond whenTrue whenFalse) v
  | whenTrue {span cond whenTrue whenFalse u v} : Folds cond u → Run.truth u = true →
    Folds whenTrue v → Folds (.branch span cond whenTrue whenFalse) v
  | whenFalse {span cond whenTrue whenFalse u v} : Folds cond u → Run.truth u = false →
    Folds whenFalse v → Folds (.branch span cond whenTrue (some whenFalse)) v
  | statement {span inner v} : Folds inner v → Folds (.statement span inner) v
  | block {span stmt v} : Folds stmt v → Folds (.block span [stmt]) v

namespace Tree

/-- The walk of a tree that folds is its value, with any functions and in any scope. -/
theorem Folds.walk {tree : Tree} {v : Float} (h : tree.Folds v) (registry : Registry)
    (scope : Scope) : tree.walk registry scope = pure (some v) := by
  induction h with
  | literal parsed => rw [Tree.walk, parsed]
  | unary effect _ ih | suffix effect _ ih =>
    rw [Tree.walk, effect]
    dsimp only
    rw [ih]
    rfl
  | binary _ _ ihl ihr => rw [Tree.walk, ihl, ihr, Compiled.run_binary_pure]
  | ternary _ _ ihc ih =>
    rw [Tree.walk, ihc, Compiled.run_branch_pure, ← ih]
    split <;> rfl
  | whenTrue _ truth _ ihc ih => rw [Tree.walk, ihc, Compiled.run_branch_pure, if_pos truth, ih]
  | whenFalse _ truth _ ihc ih =>
    rw [Tree.walk, ihc, Compiled.run_branch_pure, if_neg (Bool.not_eq_true _ ▸ truth), walkOptional,
      Option.getD_some, ih]
  | statement _ ih => rw [Tree.walk, ih]
  | block _ ih => rw [Tree.walk, walkStatements, walkStatements, Run.block_singleton, ih]

theorem Folds.unique {tree : Tree} {v w : Float} (h : tree.Folds v) (h' : tree.Folds w) :
    v = w := by
  have same : (pure (some v) : Code) = pure (some w) :=
    (h.walk (.empty 0) .outermost).symm.trans (h'.walk (.empty 0) .outermost)
  have result := congrFun (congrFun same ⟨.empty 0, 0, .never, 0⟩) .empty
  cases result
  rfl

/-! ## Compiling -/

variable {registry : Registry} {scope : Scope} {t t' : Tally} {c : Compiled} {v : Float}

theorem constant?_of_alwaysExits {tree : Tree} (exits : tree.alwaysExits = true)
    (h : tree.compile registry scope t = .ok (c, t')) : c.constant? = none := by
  cases tree with
  | breakOut | continueOn | returnWith =>
    simp only [compile, bind_ok, pure_ok] at h
    grind [Compiled.constant?]
  | _ => cases exits

/-- Only a single statement that does not exit leaves a single constant. -/
private theorem statements_eq_single {stmts : List Tree}
    (h : compileStatements registry scope false stmts t = .ok ([c], t'))
    (constant : c.constant? = some v) :
    ∃ stmt, stmts = [stmt] ∧ stmt.compile registry scope t = .ok (c, t') := by
  cases stmts with
  | nil => simp [compileStatements, pure_ok] at h
  | cons stmt rest =>
    simp only [compileStatements, bind_ok, pure_ok, Bool.false_or, Bool.false_eq_true,
      if_false] at h
    obtain ⟨c', t₁, hc, more, t₂, hmore, heq, rfl⟩ := h
    cases heq
    have goes_on : stmt.alwaysExits = false := by
      cases exits : stmt.alwaysExits with
      | false => rfl
      | true =>
        rw [constant?_of_alwaysExits exits hc] at constant
        cases constant
    rw [goes_on] at hmore
    cases rest with
    | nil =>
      simp only [compileStatements, pure_ok] at hmore
      exact ⟨stmt, rfl, hmore.2 ▸ hc⟩
    | cons _ _ =>
      simp only [compileStatements, bind_ok, pure_ok, Bool.false_eq_true, if_false] at hmore
      obtain ⟨_, _, -, _, _, -, heq, -⟩ := hmore
      cases heq

/-- A tree that compiles becomes a constant exactly if it folds. -/
theorem constant?_eq_some_iff_folds {tree : Tree}
    (h : tree.compile registry scope t = .ok (c, t')) :
    c.constant? = some v ↔ tree.Folds v := by
  induction tree, scope using Tree.induction_on_parts generalizing t t' c v with
  | step tree scope ih =>
  cases tree with
  | literal span text =>
    simp only [compile, bind_ok, countNode_ok] at h
    obtain ⟨_, _, -, h⟩ := h
    cases parsed : Literal.parse? text with
    | none => simp only [parsed, refuse_ok] at h
    | some w =>
      simp only [parsed, pure_ok] at h
      rw [← h.1]
      constructor
      · rintro ⟨⟩
        exact .literal parsed
      · rintro (folds : Folds _ _)
        cases folds with
        | literal h => exact parsed.symm.trans h
  | unary span op operand =>
    simp only [compile, bind_ok] at h
    obtain ⟨_, _, -, h⟩ := h
    cases effect : op.effect with
    | compute f =>
      simp only [effect, bind_ok, pure_ok] at h
      obtain ⟨operand', _, hoperand, rfl, -⟩ := h
      have operand_folds : ∀ {u}, operand'.constant? = some u ↔ operand.Folds u :=
        ih _ _ (.head _) hoperand
      rw [Compiled.constant?_compute]
      constructor
      · intro constant
        obtain ⟨u, hu, rfl⟩ := constant
        exact .unary effect (operand_folds.mp hu)
      · intro folds
        cases folds with
        | @unary _ _ f' _ u effect' hu =>
          cases effect.symm.trans effect'
          exact ⟨u, operand_folds.mpr hu, rfl⟩
    | step delta =>
      simp only [effect, bind_ok, pure_ok] at h
      obtain ⟨_, _, -, rfl, -⟩ := h
      constructor
      · intro constant
        cases constant
      · intro folds
        cases folds with
        | unary effect' => cases effect.symm.trans effect'
  | suffix span op operand =>
    simp only [compile, bind_ok] at h
    obtain ⟨_, _, -, h⟩ := h
    cases effect : op.effect with
    | compute f =>
      simp only [effect, bind_ok, pure_ok] at h
      obtain ⟨operand', _, hoperand, rfl, -⟩ := h
      have operand_folds : ∀ {u}, operand'.constant? = some u ↔ operand.Folds u :=
        ih _ _ (.head _) hoperand
      rw [Compiled.constant?_compute]
      constructor
      · intro constant
        obtain ⟨u, hu, rfl⟩ := constant
        exact .suffix effect (operand_folds.mp hu)
      · intro folds
        cases folds with
        | @suffix _ _ f' _ u effect' hu =>
          cases effect.symm.trans effect'
          exact ⟨u, operand_folds.mpr hu, rfl⟩
    | step delta =>
      simp only [effect, bind_ok, pure_ok] at h
      obtain ⟨_, _, -, rfl, -⟩ := h
      constructor
      · intro constant
        cases constant
      · intro folds
        cases folds with
        | suffix effect' => cases effect.symm.trans effect'
  | binary span op left right =>
    simp only [compile, bind_ok, pure_ok] at h
    obtain ⟨_, _, -, l, _, hl, r, _, hr, rfl, -⟩ := h
    have left_folds : ∀ {u}, l.constant? = some u ↔ left.Folds u := ih _ _ (.head _) hl
    have right_folds : ∀ {u}, r.constant? = some u ↔ right.Folds u := ih _ _ (.tail _ (.head _)) hr
    rw [Compiled.constant?_binary]
    constructor
    · intro constant
      obtain ⟨u, w, hu, hw, rfl⟩ := constant
      exact .binary (left_folds.mp hu) (right_folds.mp hw)
    · intro folds
      cases folds with
      | binary hu hw => exact ⟨_, _, left_folds.mpr hu, right_folds.mpr hw, rfl⟩
  | ternary span cond whenTrue whenFalse =>
    simp only [compile, bind_ok, pure_ok] at h
    obtain ⟨_, _, -, test, _, htest, yes, _, hyes, no, _, hno, rfl, -⟩ := h
    have cond_folds : ∀ {u}, test.constant? = some u ↔ cond.Folds u := ih _ _ (.head _) htest
    have chosen : ∀ {u v}, (if Run.truth u then yes else no).constant? = some v ↔
        (if Run.truth u then whenTrue else whenFalse).Folds v := by
      intro u v
      split
      · exact ih _ _ (.tail _ (.head _)) hyes
      · exact ih _ _ (.tail _ (.tail _ (.head _))) hno
    rw [Compiled.constant?_branch]
    constructor
    · intro constant
      obtain ⟨u, hu, hv⟩ := constant
      exact .ternary (cond_folds.mp hu) (chosen.mp hv)
    · intro folds
      cases folds with
      | ternary hu hv => exact ⟨_, cond_folds.mpr hu, chosen.mpr hv⟩
  | branch span cond whenTrue whenFalse =>
    simp only [compile, bind_ok, pure_ok] at h
    obtain ⟨_, _, -, test, _, htest, yes, _, hyes, no, _, hno, rfl, -⟩ := h
    have cond_folds : ∀ {u}, test.constant? = some u ↔ cond.Folds u := ih _ _ (.head _) htest
    have chosen : ∀ {u v}, (if Run.truth u then yes else no.getD .nothing).constant? = some v ↔
        Run.truth u = true ∧ whenTrue.Folds v ∨
          Run.truth u = false ∧ ∃ tree, whenFalse = some tree ∧ tree.Folds v := by
      intro u v
      cases Run.truth u with
      | true => simp [ih _ _ (.tail _ (.head _)) hyes]
      | false =>
        rcases compileOptional_ok.mp hno with ⟨rfl, rfl, -⟩ | ⟨tree, c, rfl, rfl, hc⟩
        · simp [Compiled.nothing, Compiled.constant?]
        · simp [ih _ _ (.tail _ (.tail _ (.head _))) hc]
    rw [Compiled.constant?_branch]
    constructor
    · intro constant
      obtain ⟨u, hu, hv⟩ := constant
      rcases chosen.mp hv with ⟨truth, hv⟩ | ⟨truth, tree, rfl, hv⟩
      · exact .whenTrue (cond_folds.mp hu) truth hv
      · exact .whenFalse (cond_folds.mp hu) truth hv
    · intro folds
      cases folds with
      | whenTrue hu truth hv => exact ⟨_, cond_folds.mpr hu, chosen.mpr (.inl ⟨truth, hv⟩)⟩
      | whenFalse hu truth hv =>
        exact ⟨_, cond_folds.mpr hu, chosen.mpr (.inr ⟨truth, _, rfl, hv⟩)⟩
  | statement span inner =>
    simp only [compile, bind_ok] at h
    obtain ⟨_, _, -, h⟩ := h
    rw [ih _ _ (.head _) h]
    constructor
    · exact .statement
    · intro folds
      cases folds with
      | statement h => exact h
  | block span stmts =>
    simp only [compile, bind_ok, pure_ok] at h
    obtain ⟨_, _, -, codes, _, hcodes, rfl, -⟩ := h
    rw [Compiled.constant?_sequence]
    constructor
    · intro constant
      obtain ⟨single, rfl, hv⟩ := constant
      obtain ⟨stmt, rfl, hstmt⟩ := statements_eq_single hcodes hv
      have stmt_folds := (ih _ _ (.head _) hstmt).mp hv
      exact .block stmt_folds
    · intro folds
      cases folds with
      | block hv =>
        simp only [compileStatements, bind_ok, pure_ok] at hcodes
        obtain ⟨c, _, hc, _, _, ⟨rfl, -⟩, rfl, -⟩ := hcodes
        have constant := (ih _ _ (.head _) hc).mpr hv
        exact ⟨c, rfl, constant⟩
  | _ =>
    -- all other nodes compile to code
    have dynamic : c.constant? = none := by
      simp only [compile, bind_ok, pure_ok] at h
      grind [Compiled.constant?, Compile.countedLoop]
    rw [dynamic]
    constructor
    · intro constant
      cases constant
    · intro folds
      cases folds

/-- The labels of a switch that compiles fold. -/
theorem folds_label_of_compileArms {position : Nat} {taken taken' : TakenCases} {arms : List Arm}
    {bodies : List Code} {label body : Tree}
    (h : compileArms registry scope position taken arms t = .ok ((taken', bodies), t'))
    (harm : ⟨label, body⟩ ∈ arms) : ∃ v, label.Folds v := by
  induction arms generalizing position taken bodies t t' with
  | nil => cases harm
  | cons arm rest ih =>
    obtain ⟨label', body'⟩ := arm
    obtain ⟨_, _, v, _, _, _, _, hlabel, hv, -, -, hrest, -⟩ := compileArms_cons_ok.mp h
    rcases List.mem_cons.mp harm with heq | harm
    · cases heq
      exact ⟨v, (constant?_eq_some_iff_folds hlabel).mp hv⟩
    · exact ih hrest harm

end Tree
end ShapeScript
