import ShapeScript.Walk
import ShapeScript.Proofs.Syntax.Parts
import ShapeScript.Proofs.Function.Extension
import ShapeScript.Proofs.Compile.Cases
import ShapeScript.Proofs.Compile.Folding

/-!
# Compiling preserves meaning

The code that a tree compiles to is the plain walk of the tree (`Tree.code_of_compile`). The walk
may use any later state of the registry that calls were resolved in. Lists of parts come first:
dropped statements are never reached, and the table of a switch finds the arm that a comparison of
the labels one after the other finds. So evaluating an expression and evaluating its tree are the
same (`Expression.evaluate_eq_evaluate_tree`).
-/

namespace ShapeScript

open Compilation Compile

/-- Wherever compiling the tree succeeds, the code is the walk. -/
def Tree.Kept (registry registry' : Registry) (tree : Tree) (scope : Scope) : Prop :=
  ∀ t t' c, tree.compile registry scope t = .ok (c, t') → c.code = tree.walk registry' scope

/-- An exit never goes on to the next statement. -/
theorem Tree.exists_error_of_alwaysExits {tree : Tree} (exits : tree.alwaysExits = true)
    (registry : Registry) (scope : Scope) (setting : Setting) (slots : Slots) :
    ∃ signal slots', tree.walk registry scope setting slots = .error signal slots' := by
  cases tree with
  | breakOut span =>
    rw [Tree.walk, Run.breakOut]
    split <;> exact ⟨_, _, rfl⟩
  | continueOn span =>
    rw [Tree.walk, Run.continueOn]
    split <;> exact ⟨_, _, rfl⟩
  | returnWith span value =>
    rw [Tree.walk, walkOptional_eq_map]
    cases value with
    | none => exact ⟨_, _, rfl⟩
    | some tree =>
      rw [Option.map_some, Run.returnWith]
      cases h : tree.walk registry scope setting slots with
      | ok value slots' => exact ⟨_, _, Run.bind_of_ok h⟩
      | error signal slots' => exact ⟨_, _, Run.bind_of_error h⟩
  | _ => cases exits

section Parts

variable {registry registry' : Registry} {scope : Scope} {t t' : Tally}

private theorem code_optional {o : Option Tree} {r : Option Compiled}
    (parts : ∀ tree ∈ o, tree.Kept registry registry' scope)
    (h : compileOptional registry scope o t = .ok (r, t')) :
    r.map Compiled.code = walkOptional registry' scope o := by
  rw [walkOptional_eq_map]
  rcases compileOptional_ok.mp h with ⟨rfl, rfl, -⟩ | ⟨tree, c, rfl, rfl, hc⟩
  · rfl
  · rw [Option.map_some, Option.map_some, parts tree rfl _ _ _ hc]

/-- Statements behind an exit may be left out: the block ends before them. -/
private theorem block_statements {stmts : List Tree} {codes : List Compiled}
    (parts : ∀ stmt ∈ stmts, stmt.Kept registry registry' scope)
    (h : compileStatements registry scope false stmts t = .ok (codes, t')) (last : Option Float) :
    Run.block (codes.map Compiled.code) last =
      Run.block (walkStatements registry' scope stmts) last := by
  induction stmts generalizing t t' codes last with
  | nil =>
    simp only [compileStatements, pure_ok] at h
    rw [← h.1, walkStatements, List.map_nil]
  | cons stmt rest ih =>
    simp only [compileStatements, bind_ok, pure_ok, Bool.false_or, Bool.false_eq_true,
      if_false] at h
    obtain ⟨c, t₁, hc, more, _, hmore, rfl, -⟩ := h
    rw [List.map_cons, walkStatements, parts stmt (.head _) _ _ _ hc]
    funext setting slots
    cases exits : stmt.alwaysExits with
    | true =>
      obtain ⟨signal, slots', failed⟩ :=
        stmt.exists_error_of_alwaysExits exits registry' scope setting slots
      rw [Run.block_cons_of_error failed, Run.block_cons_of_error failed]
    | false =>
      rw [exits] at hmore
      have same := ih (fun stmt h => parts stmt (.tail _ h)) hmore
      cases run : stmt.walk registry' scope setting slots with
      | ok value slots' => rw [Run.block_cons_of_ok run, Run.block_cons_of_ok run, same]
      | error signal slots' => rw [Run.block_cons_of_error run, Run.block_cons_of_error run]

private theorem arguments_eq {function : String} {position : Nat} {args : List Tree}
    {params : List ParamKind} {passed : List Run.Argument}
    (parts : ∀ arg ∈ args, arg.Kept registry registry' scope)
    (h : compileArguments registry scope function position args params t = .ok (passed, t')) :
    passed = walkArguments registry' scope args params := by
  induction args generalizing position params passed t t' with
  | nil =>
    simp only [compileArguments, pure_ok] at h
    rw [← h.1, walkArguments.eq_def]
  | cons arg rest ih =>
    have rest_parts : ∀ arg ∈ rest, arg.Kept registry registry' scope :=
      fun arg h => parts arg (.tail _ h)
    cases params with
    | nil =>
      simp only [compileArguments, pure_ok] at h
      rw [← h.1, walkArguments.eq_def]
    | cons kind params =>
      cases kind with
      | value =>
        simp only [compileArguments, bind_ok, pure_ok] at h
        obtain ⟨c, _, hc, more, _, hmore, rfl, -⟩ := h
        have arg_code := parts arg (.head _) _ _ _ hc
        have rest_arguments := ih rest_parts hmore
        rw [walkArguments, arg_code, rest_arguments]
      | reference =>
        rw [compileArguments] at h
        rw [walkArguments]
        cases named : arg.var? with
        | none => simp only [named, refuse_ok] at h
        | some var =>
          simp only [named, bind_ok, pure_ok] at h
          obtain ⟨_, _, -, _, _, -, more, _, hmore, rfl, -⟩ := h
          rw [ih rest_parts hmore]

/-! ## Switches -/

private theorem first?_arms_of_some {position : Nat} {taken taken' : TakenCases} {arms : List Arm}
    {bodies : List Code} {v : Float} {first : TakenCase}
    (h : compileArms registry scope position taken arms t = .ok ((taken', bodies), t'))
    (found : taken.first? v = some first) : taken'.first? v = some first := by
  induction arms generalizing position taken bodies t t' with
  | nil =>
    simp only [compileArms, pure_ok] at h
    cases h.1
    exact found
  | cons arm rest ih =>
    obtain ⟨label, body⟩ := arm
    obtain ⟨_, _, _, taken₁, _, _, _, -, -, htaken, -, hrest, rfl⟩ := compileArms_cons_ok.mp h
    exact ih hrest (first?_takeCase_of_some htaken found)

private theorem bodies_arms {position : Nat} {taken taken' : TakenCases} {arms : List Arm}
    {bodies : List Code}
    (parts : ∀ part ∈ arms.flatMap Arm.parts, part.Kept registry registry' scope)
    (h : compileArms registry scope position taken arms t = .ok ((taken', bodies), t')) :
    bodies = (walkArms registry' scope arms).map (·.2) := by
  induction arms generalizing position taken bodies t t' with
  | nil =>
    simp only [compileArms, pure_ok] at h
    cases h.1
    rw [walkArms, List.map_nil]
  | cons arm rest ih =>
    obtain ⟨label, body⟩ := arm
    obtain ⟨_, _, _, _, _, _, _, -, -, -, hbc, hrest, rfl⟩ := compileArms_cons_ok.mp h
    have body_code := parts body (.tail _ (.head _)) _ _ _ hbc
    have rest_bodies := ih (fun part h => parts part (List.mem_append_right _ h)) hrest
    rw [walkArms, List.map_cons, ← rest_bodies, body_code]

/-- For a value that no case has taken so far, comparing the labels one after the other comes to
the position of its case. -/
private theorem select_arms {position : Nat} {taken taken' : TakenCases} {arms : List Arm}
    {bodies : List Code} {v : Float}
    (parts : ∀ part ∈ arms.flatMap Arm.parts, part.Kept registry registry' scope)
    (h : compileArms registry scope position taken arms t = .ok ((taken', bodies), t'))
    (free : taken.first? v = none) :
    (∀ first, taken'.first? v = some first → position ≤ first.position) ∧
      Walk.select v ((walkArms registry' scope arms).map (·.1)) =
        pure ((taken'.first? v).elim arms.length fun first => first.position - position) := by
  induction arms generalizing position taken bodies t t' with
  | nil =>
    simp only [compileArms, pure_ok] at h
    cases h.1
    rw [free, walkArms]
    constructor
    · intro first found
      cases found
    · rfl
  | cons arm rest ih =>
    obtain ⟨label, body⟩ := arm
    have rest_parts : ∀ part ∈ rest.flatMap Arm.parts, part.Kept registry registry' scope :=
      fun part h => parts part (List.mem_append_right _ h)
    obtain ⟨_, _, lv, _, _, _, _, hlc, hlv, htaken, -, hrest, rfl⟩ := compileArms_cons_ok.mp h
    have label_walk : label.walk registry' scope = pure (some lv) :=
      (parts label (.head _) _ _ _ hlc).symm.trans (Compiled.code_of_constant? hlv)
    have step : Walk.select v ((walkArms registry' scope (⟨label, body⟩ :: rest)).map (·.1)) =
        if v == lv then pure 0
        else do return (← Walk.select v ((walkArms registry' scope rest).map (·.1))) + 1 := by
      rw [walkArms, List.map_cons, Walk.select, label_walk, pure_bind]
      rfl
    rw [step]
    split
    next eq =>
      rw [first?_arms_of_some hrest (first?_takeCase_of_eq htaken eq), Option.elim_some,
        Nat.sub_self]
      refine ⟨fun first h => ?_, rfl⟩
      cases h
      exact Nat.le_refl _
    next ne =>
      obtain ⟨behind, same⟩ := ih rest_parts hrest ((first?_takeCase_of_ne htaken ne).trans free)
      refine ⟨fun first h => Nat.le_of_succ_le (behind first h), ?_⟩
      rw [same, pure_bind]
      cases found : taken'.first? v with
      | none => rfl
      | some first =>
        have position_eq : first.position - position = first.position - (position + 1) + 1 := by
          have := behind first found
          omega
        rw [Option.elim_some, Option.elim_some, position_eq]

/-- The table of a compiled switch leads to the bodies that comparing the labels finds. -/
private theorem dispatch_arms {taken : TakenCases} {arms : List Arm} {bodies : List Code}
    (parts : ∀ part ∈ arms.flatMap Arm.parts, part.Kept registry registry' scope)
    (h : compileArms registry scope 0 ∅ arms t = .ok ((taken, bodies), t'))
    (fallback : Option Code) (scrutinee : Code) (span : Span) :
    (do
        let v ← Run.required scrutinee span
        SwitchTable.dispatch ⟨taken.map fun _ first => first.position, bodies, fallback⟩ v) =
      Walk.switch scrutinee span (walkArms registry' scope arms) fallback := by
  rw [Walk.switch]
  apply bind_congr
  intro v
  have all : bodies.drop arms.length = [] := by
    rw [bodies_arms parts h, walkArms_eq_map]
    simp
  rw [(select_arms parts h (first?_empty v)).2, pure_bind, ← bodies_arms parts h, SwitchTable.dispatch,
    SwitchTable.tail]
  cases hv : caseKey? v with
  | none => simp [TakenCases.first?, hv, all]
  | some key => cases hkey : taken[key]? <;> simp [TakenCases.first?, hv, hkey, all]

end Parts

/-! ## Trees -/

/-- The code that a tree compiles to is its walk with the functions of any later registry. -/
theorem Tree.code_of_compile {registry registry' : Registry} (grown : registry.Extends registry')
    (tree : Tree) (scope : Scope) : tree.Kept registry registry' scope := by
  induction tree, scope using Tree.induction_on_parts with
  | step tree scope ih =>
  intro t t' c h
  cases tree with
  | literal span text =>
    simp only [Tree.compile, bind_ok, countNode_ok] at h
    obtain ⟨_, _, -, h⟩ := h
    rw [Tree.walk]
    cases parsed : Literal.parse? text with
    | none => simp only [parsed, refuse_ok] at h
    | some v =>
      simp only [parsed, pure_ok] at h
      rw [← h.1]
      rfl
  | ident span var =>
    simp only [Tree.compile, bind_ok, pure_ok] at h
    obtain ⟨_, _, -, _, _, -, rfl, -⟩ := h
    rw [Tree.walk, Compiled.code]
  | assign span op target value =>
    simp only [Tree.compile, bind_ok, target_ok, pure_ok] at h
    obtain ⟨_, _, -, var, _, ⟨named, -⟩, rhs, _, hrhs, rfl, -⟩ := h
    have value_code := ih value scope (.tail _ (.head _)) _ _ _ hrhs
    rw [Tree.walk, named, ← value_code, Compiled.code]
  | unary span op operand =>
    simp only [Tree.compile, bind_ok] at h
    obtain ⟨_, _, -, h⟩ := h
    rw [Tree.walk]
    cases effect : op.effect with
    | compute f =>
      simp only [effect, bind_ok, pure_ok] at h
      obtain ⟨operand', _, hoperand, rfl, -⟩ := h
      have operand_code := ih operand scope (.head _) _ _ _ hoperand
      rw [Compiled.code_compute, operand_code]
    | step delta =>
      simp only [effect, bind_ok, target_ok, pure_ok] at h
      obtain ⟨var, _, ⟨named, -⟩, rfl, -⟩ := h
      rw [named, Compiled.code]
  | suffix span op operand =>
    simp only [Tree.compile, bind_ok] at h
    obtain ⟨_, _, -, h⟩ := h
    rw [Tree.walk]
    cases effect : op.effect with
    | compute f =>
      simp only [effect, bind_ok, pure_ok] at h
      obtain ⟨operand', _, hoperand, rfl, -⟩ := h
      have operand_code := ih operand scope (.head _) _ _ _ hoperand
      rw [Compiled.code_compute, operand_code]
    | step delta =>
      simp only [effect, bind_ok, target_ok, pure_ok] at h
      obtain ⟨var, _, ⟨named, -⟩, rfl, -⟩ := h
      rw [named, Compiled.code]
  | binary span op left right =>
    simp only [Tree.compile, bind_ok, pure_ok] at h
    obtain ⟨_, _, -, l, _, hl, r, _, hr, rfl, -⟩ := h
    have left_code := ih left scope (.head _) _ _ _ hl
    have right_code := ih right scope (.tail _ (.head _)) _ _ _ hr
    rw [Tree.walk, Compiled.code_binary, left_code, right_code]
  | ternary span cond whenTrue whenFalse =>
    simp only [Tree.compile, bind_ok, pure_ok] at h
    obtain ⟨_, _, -, test, _, htest, yes, _, hyes, no, _, hno, rfl, -⟩ := h
    have cond_code := ih cond scope (.head _) _ _ _ htest
    have yes_code := ih whenTrue scope (.tail _ (.head _)) _ _ _ hyes
    have no_code := ih whenFalse scope (.tail _ (.tail _ (.head _))) _ _ _ hno
    rw [Tree.walk, Compiled.code_branch, cond_code, yes_code, no_code]
  | call span function args =>
    simp only [Tree.compile, bind_ok, pure_ok] at h
    obtain ⟨_, _, -, ⟨id, params⟩, _, hcallee, arguments, _, harguments, rfl, -⟩ := h
    obtain ⟨resolved, rfl, -⟩ := callee_ok.mp hcallee
    have parts : ∀ arg ∈ args, arg.Kept registry registry' scope := by
      intro arg harg
      exact ih arg scope (List.mem_map_of_mem harg)
    rw [Tree.walk, Walk.call, grown.resolve? resolved, Compiled.code,
      arguments_eq parts harguments, ← grown.params resolved]
  | block span stmts =>
    simp only [Tree.compile, bind_ok, pure_ok] at h
    obtain ⟨_, _, -, codes, _, hcodes, rfl, -⟩ := h
    have parts : ∀ stmt ∈ stmts, stmt.Kept registry registry' scope := by
      intro stmt hstmt
      exact ih stmt scope (List.mem_map_of_mem hstmt)
    rw [Tree.walk, Compiled.code_sequence]
    exact block_statements parts hcodes none
  | statement span inner =>
    simp only [Tree.compile, bind_ok] at h
    obtain ⟨_, _, -, h⟩ := h
    rw [Tree.walk, ih _ _ (.head _) _ _ _ h]
  | branch span cond whenTrue whenFalse =>
    simp only [Tree.compile, bind_ok, pure_ok] at h
    obtain ⟨_, _, -, test, _, htest, yes, _, hyes, no, _, hno, rfl, -⟩ := h
    have cond_code := ih cond scope (.head _) _ _ _ htest
    have yes_code := ih whenTrue scope (.tail _ (.head _)) _ _ _ hyes
    have no_code : (no.getD .nothing).code = (no.map Compiled.code).getD (pure none) := by
      cases no <;> rfl
    have parts : ∀ tree ∈ whenFalse, tree.Kept registry registry' scope := by
      intro tree htree
      have mem := List.mem_map_of_mem (f := (·, scope)) (Option.mem_toList.mpr htree)
      exact ih tree scope (.tail _ (.tail _ mem))
    rw [Tree.walk, Compiled.code_branch, no_code, code_optional parts hno, cond_code, yes_code]
  | whileLoop span cond body =>
    simp only [Tree.compile, bind_ok, pure_ok] at h
    obtain ⟨_, _, -, test, _, htest, lap, _, hlap, rfl, -⟩ := h
    have cond_code := ih cond scope (.head _) _ _ _ htest
    have body_code := ih body scope.loopBody (.tail _ (.head _)) _ _ _ hlap
    rw [Tree.walk, Compiled.code, cond_code, body_code]
  | doWhile span body cond =>
    simp only [Tree.compile, bind_ok, pure_ok] at h
    obtain ⟨_, _, -, lap, _, hlap, test, _, htest, rfl, -⟩ := h
    have body_code := ih body scope.loopBody (.head _) _ _ _ hlap
    have cond_code := ih cond scope (.tail _ (.head _)) _ _ _ htest
    rw [Tree.walk, Compiled.code, body_code, cond_code]
  | forLoop span init cond update body =>
    simp only [Tree.compile, bind_ok, pure_ok] at h
    obtain ⟨_, _, -, start, _, hstart, test, _, htest, next, _, hnext, lap, _, hlap, rfl, -⟩ := h
    have part : ∀ tree ∈ init.toList ++ cond.toList ++ update.toList,
        tree.Kept registry registry' scope := by
      intro tree htree
      exact ih tree scope (List.mem_append_left _ (List.mem_map_of_mem htree))
    have body_code := ih body scope.loopBody (List.mem_append_right _ (.head _)) _ _ _ hlap
    have init_code := code_optional (fun tree htree => part tree (by simp_all)) hstart
    have cond_code := code_optional (fun tree htree => part tree (by simp_all)) htest
    have update_code := code_optional (fun tree htree => part tree (by simp_all)) hnext
    rw [Tree.walk, ← init_code, ← cond_code, ← update_code, ← body_code, Compiled.code,
      Option.map_map]
    cases start <;> rfl
  | countedLoop span counter first last body =>
    simp only [Tree.compile, bind_ok, pure_ok] at h
    obtain ⟨_, _, -, _, _, -, low, _, hlow, high, _, hhigh, lap, _, hlap, rfl, -⟩ := h
    have first_code := ih first scope (.head _) _ _ _ hlow
    have last_code := ih last scope (.tail _ (.head _)) _ _ _ hhigh
    have body_code := ih body scope.loopBody (.tail _ (.tail _ (.head _))) _ _ _ hlap
    rw [Tree.walk, Compile.countedLoop, Compiled.code, first_code, last_code, body_code]
  | switch span scrutinee arms fallback =>
    simp only [Tree.compile, bind_ok, pure_ok] at h
    obtain ⟨_, _, -, value, _, hvalue, ⟨taken, bodies⟩, _, harms, last, _, hlast, rfl, -⟩ := h
    have part : ∀ tree ∈ arms.flatMap Arm.parts ++ fallback.toList,
        tree.Kept registry registry' scope.switchBody := by
      intro tree htree
      have mem := List.mem_map_of_mem (f := (·, scope.switchBody)) htree
      exact ih tree scope.switchBody (.tail _ mem)
    have scrutinee_code := ih scrutinee scope (.head _) _ _ _ hvalue
    have fallback_code := code_optional
      (fun tree htree => part tree (List.mem_append_right _ (Option.mem_toList.mpr htree))) hlast
    rw [Tree.walk, ← fallback_code, ← scrutinee_code, Compiled.code]
    exact dispatch_arms (fun tree htree => part tree (List.mem_append_left _ htree)) harms _ _ _
  | breakOut span =>
    simp only [Tree.compile, bind_ok, pure_ok] at h
    obtain ⟨_, _, -, rfl, -⟩ := h
    rw [Tree.walk, Compiled.code]
  | continueOn span =>
    simp only [Tree.compile, bind_ok, pure_ok] at h
    obtain ⟨_, _, -, rfl, -⟩ := h
    rw [Tree.walk, Compiled.code]
  | returnWith span value =>
    simp only [Tree.compile, bind_ok, pure_ok] at h
    obtain ⟨_, _, -, result, _, hresult, rfl, -⟩ := h
    have parts : ∀ tree ∈ value, tree.Kept registry registry' scope := by
      intro tree htree
      exact ih tree scope (List.mem_map_of_mem (Option.mem_toList.mpr htree))
    rw [Tree.walk, ← code_optional parts hresult, Compiled.code]

/-! ## Expressions -/

namespace Expression

/-- The code of an expression is the walk of its tree, outside of all loops and switches. -/
theorem code_eq_walk {registry registry' : Registry} {tree : Tree} {x : Expression}
    (compiled : compile registry tree = .ok x) (grown : registry.Extends registry') :
    x.code = tree.walk registry' .outermost := by
  obtain ⟨c, _, h, rfl⟩ := compile_ok.mp compiled
  exact tree.code_of_compile grown .outermost _ _ _ h

theorem registry_eq {registry : Registry} {tree : Tree} {x : Expression}
    (compiled : compile registry tree = .ok x) : x.registry = registry.identity := by
  obtain ⟨_, _, -, rfl⟩ := compile_ok.mp compiled
  rfl

/-- Compiling preserves meaning. In every environment on the registry, which may have grown since,
a compiled expression answers what the walk of the tree answers and leaves the same slots. -/
theorem evaluate_eq_evaluate_tree {registry : Registry} {tree : Tree} {x : Expression}
    (compiled : compile registry tree = .ok x) (e : Environment)
    (grown : registry.Extends e.setting.registry) : x.evaluate e = tree.evaluate e := by
  have same_registry : e.setting.registry.identity = x.registry := by
    rw [registry_eq compiled, grown.identity]
  rw [evaluate, if_neg (not_not_intro same_registry), code_eq_walk compiled grown, Tree.evaluate]

/-- The operands of the sum fold, the condition picks its branch, and what stands behind the break
is left out. -/
theorem evaluate_eq_evaluate_tree_of_dead_statement :
    let tree : Tree := .block ⟨0, 40⟩
      [.assign ⟨1, 2⟩ .assign (.ident ⟨1, 2⟩ "x")
          (.binary ⟨3, 8⟩ .add (.literal ⟨3, 4⟩ "2") (.literal ⟨5, 6⟩ "3")),
        .whileLoop ⟨9, 30⟩ (.literal ⟨10, 11⟩ "1") (.block ⟨12, 29⟩
          [.branch ⟨13, 20⟩ (.literal ⟨14, 15⟩ "0") (.ident ⟨16, 17⟩ "y") none,
            .breakOut ⟨21, 22⟩, .ident ⟨23, 24⟩ "y"])]
    let e : Environment := .fresh (.empty 0) .never 0
    ∃ x, compile (.empty 0) tree = .ok x ∧ x.evaluate e = tree.evaluate e := by
  intro tree e
  exact ⟨_, rfl, evaluate_eq_evaluate_tree rfl e (.refl _)⟩

end Expression

end ShapeScript
