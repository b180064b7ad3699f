import ShapeScript.Proofs.Environment.Slots
import ShapeScript.Proofs.Expression.Frame
import ShapeScript.Proofs.Expression.Workers

/-!
# Batches of rows in one environment and apart

If an expression writes nothing but inputs, then of what a row leaves in the environment nothing is
left once the next row is bound: the other slots are as they were (`Environment.Reuses`), and the
inputs are overwritten (`Frame.overwrite`). So every row answers what it answers alone, and rows one
after the other give what workers can give (`Expression.evaluateRows_agrees_with_workers`).
-/

namespace ShapeScript

namespace Frame

variable {targets targets' : Write → String → Prop} {s s' : Slots}

/-- Assigning fails in both or in none. -/
theorem assign_cases (h : Frame targets s s') (name : String) (v : Float) :
    (s.assign name v = .error .constant ∧ s'.assign name v = .error .constant) ∨
      (s.assign name v = .ok (s.write name v) ∧ s'.assign name v = .ok (s'.write name v)) := by
  rw [Slots.assign, Slots.assign]
  cases held : s.slot? name with
  | none =>
    rcases h.new held with held' | ⟨-, w, held'⟩
    · rw [held']
      exact .inr ⟨rfl, rfl⟩
    · rw [held']
      exact .inr ⟨rfl, rfl⟩
  | some slot =>
    cases slot with
    | const w =>
      rw [h.constant held]
      exact .inl ⟨rfl, rfl⟩
    | var w =>
      obtain ⟨w', held'⟩ := h.var held
      rw [held']
      exact .inr ⟨rfl, rfl⟩

/-- A target that is overwritten is none any more. -/
theorem overwrite (h : Frame targets s s') {name : String} (v : Float)
    (rest : ∀ how other, targets how other → other ≠ name → targets' how other) :
    Frame targets' (s.write name v) (s'.write name v) where
  untouched {other} no_target := by
    rw [Slots.slot?_write, Slots.slot?_write]
    split
    next => rfl
    next ne =>
      exact h.untouched fun how target => no_target how (rest how other target (Ne.symm ne))
  constant {other w} held := by
    rw [Slots.slot?_write] at held ⊢
    split at held
    next => cases held
    next ne =>
      rw [if_neg ne]
      exact h.constant held
  var {other w} held := by
    rw [Slots.slot?_write] at held ⊢
    split at held
    next eq =>
      rw [if_pos eq]
      exact ⟨v, rfl⟩
    next ne =>
      rw [if_neg ne]
      exact h.var held
  new {other} free := by
    rw [Slots.slot?_write] at free ⊢
    split at free
    next => cases free
    next ne =>
      rw [if_neg ne]
      refine (h.new free).imp_right fun ⟨target, held⟩ => ?_
      exact ⟨rest .bind other target (Ne.symm ne), held⟩

end Frame

/-- What rows leave of the environment they started in: nothing but inputs has changed. -/
structure Environment.Reuses (inputs : List String) (e e' : Environment) : Prop where
  setting : e'.setting = e.setting
  slots : Frame (fun _ name => name ∈ inputs) e.slots e'.slots

theorem Environment.Reuses.refl (inputs : List String) (e : Environment) : e.Reuses inputs e :=
  ⟨rfl, .refl _ _⟩

namespace Expression

/-- What a row answers by itself. -/
abbrev answer (x : Expression) (e : Environment) (inputs : List String) (row : List Float) :
    Evaluated :=
  (x.evaluateRow e inputs row).1

variable {registry : Registry} {tree : Tree} {x : Expression} {inputs : List String}
  {e e' : Environment}

/-- Slots that are the same make no difference. -/
private theorem evaluate_of_same (compiled : compile registry tree = .ok x)
    (setting : e'.setting = e.setting) (same : e.slots.Same e'.slots) :
    (x.evaluate e).1 = (x.evaluate e').1 := by
  have laws : WalkLaws (.within e.setting Slots.Same) registry tree .outermost id
      (fun _ => (· = ·)) :=
    .of_slots (fun _ _ hs => hs _) fun _ _ hs _ => hs.write _ _
  rw [evaluate, evaluate, setting]
  split
  · rfl
  · exact (runIn_inStep (code_inStep compiled laws) (fun _ => id) rfl setting same).1

/-! ## Binding -/

/-- Binding overwrites what the environments differ in, or fails in both. -/
private theorem bind_go_of_frame (x : Expression) {pairs : List (String × Float)}
    (setting : e'.setting = e.setting)
    (frame : Frame (fun _ name => name ∈ pairs.map (·.1)) e.slots e'.slots) :
    (bind.go x e' pairs).1 = (bind.go x e pairs).1 ∧
      ((bind.go x e pairs).1 = .ok () →
        (bind.go x e' pairs).2.setting = (bind.go x e pairs).2.setting ∧
          (bind.go x e pairs).2.slots.Same (bind.go x e' pairs).2.slots) := by
  induction pairs generalizing e e' with
  | nil =>
    have same : e.slots.Same e'.slots :=
      fun name => (frame.untouched fun _ => List.not_mem_nil).symm
    exact ⟨rfl, fun _ => ⟨setting, same⟩⟩
  | cons pair rest ih =>
    obtain ⟨input, v⟩ := pair
    rw [bind.go, bind.go]
    rcases frame.assign_cases input v with ⟨fails, fails'⟩ | ⟨assigned, assigned'⟩
    · rw [fails, fails']
      exact ⟨rfl, nofun⟩
    · rw [assigned, assigned']
      refine ih setting (frame.overwrite v fun how other mem ne => ?_)
      exact (List.mem_cons.mp mem).resolve_left ne

/-- Binding writes nothing but inputs. -/
private theorem bind_go_reuses (x : Expression) {pairs : List (String × Float)}
    (reuses : e.Reuses inputs e') (mem : ∀ pair ∈ pairs, pair.1 ∈ inputs) :
    e.Reuses inputs (bind.go x e' pairs).2 := by
  induction pairs generalizing e' with
  | nil => exact reuses
  | cons pair rest ih =>
    obtain ⟨input, v⟩ := pair
    have mem_input : input ∈ inputs := mem _ (.head _)
    have mem_rest : ∀ pair ∈ rest, pair.1 ∈ inputs := fun pair h => mem pair (.tail _ h)
    rw [bind.go]
    split
    next slots assigned =>
      obtain ⟨no_constant, rfl⟩ := Slots.assign_eq_ok_iff.mp assigned
      have allowed : Write.bind.Allows (e'.slots.slot? input) := no_constant
      exact ih ⟨reuses.setting, reuses.slots.write mem_input allowed v⟩ mem_rest
    next => exact reuses

section

variable (reuses : e.Reuses inputs e') (row : List Float)
include reuses

/-- Rows that have been bound before make no difference to binding, nor to what is bound. -/
private theorem bind_of_reuses (x : Expression) :
    (x.bind e' inputs row).1 = (x.bind e inputs row).1 ∧
      ((x.bind e inputs row).1 = .ok () →
        (x.bind e' inputs row).2.setting = (x.bind e inputs row).2.setting ∧
          (x.bind e inputs row).2.slots.Same (x.bind e' inputs row).2.slots) := by
  rw [bind, bind]
  split
  · exact ⟨rfl, nofun⟩
  next arity =>
    have names : (inputs.zip row).map (·.1) = inputs :=
      List.map_fst_zip (le_of_eq (not_not.mp arity).symm)
    refine bind_go_of_frame x reuses.setting ?_
    rw [names]
    exact reuses.slots

private theorem bind_reuses (x : Expression) : e.Reuses inputs (x.bind e' inputs row).2 := by
  rw [bind]
  split
  · exact reuses
  · exact bind_go_reuses x reuses fun pair mem => (List.of_mem_zip mem).1

/-! ## Rows -/

variable (compiled : compile registry tree = .ok x)
  (written : ∀ how name, tree.HasTarget registry how name → name ∈ inputs)
include compiled written

private theorem evaluate_reuses : e.Reuses inputs (x.evaluate e').2 := by
  rw [evaluate]
  split
  · exact reuses
  · refine ⟨(setting_runIn e' x.code).trans reuses.setting, reuses.slots.trans ?_⟩
    exact (frame_of_runIn compiled e').mono written

/-- A row answers what it answers alone, and leaves the environment to the next one. -/
private theorem evaluateRow_of_reuses :
    (x.evaluateRow e' inputs row).1 = (x.evaluateRow e inputs row).1 ∧
      e.Reuses inputs (x.evaluateRow e' inputs row).2 := by
  obtain ⟨same_result, same_slots⟩ := bind_of_reuses reuses row x
  have bound := bind_reuses reuses row x
  rw [evaluateRow, evaluateRow]
  rcases hb : x.bind e inputs row with ⟨result, bound_e⟩
  rcases hb' : x.bind e' inputs row with ⟨result', bound_e'⟩
  rw [hb, hb'] at same_result same_slots
  rw [hb'] at bound
  obtain rfl : result' = result := same_result
  cases result' with
  | error halt => exact ⟨rfl, bound⟩
  | ok =>
    obtain ⟨setting, same⟩ := same_slots rfl
    exact ⟨(evaluate_of_same compiled setting same).symm, evaluate_reuses bound compiled written⟩

omit row in
/-- One after the other, the rows answer what they answer apart. -/
private theorem evaluateRows_of_reuses (rows : List (List Float)) :
    (x.evaluateRows e' inputs rows).1 = x.evaluateApart e inputs rows := by
  induction rows generalizing e' with
  | nil => rfl
  | cons row rest ih =>
    obtain ⟨same, left⟩ := evaluateRow_of_reuses reuses row compiled written
    rw [evaluateRows, evaluateApart, List.mapM_cons, ← same]
    rcases hr : x.evaluateRow e' inputs row with ⟨result, after⟩
    rw [hr] at left
    cases result with
    | error halt => rfl
    | ok value =>
      have tail : (x.evaluateRows after inputs rest).1 = x.evaluateApart e inputs rest := ih left
      change (x.evaluateRows after inputs rest).1.map (value :: ·) = _
      rw [tail, evaluateApart]
      cases rest.mapM fun row => (x.evaluateRow e inputs row).1 with
      | error halt => rfl
      | ok values => rfl

end

/-- If the expression writes nothing but inputs, a batch gives the same in one environment and
apart, and workers that take the rows in any order always come to an end. If every row has a value
by itself, the values are what both give, whatever the workers do; otherwise both fail: the batch
with the failure of the first row that fails, and the workers with the failure of some row. -/
theorem evaluateRows_agrees_with_workers (compiled : compile registry tree = .ok x)
    (written : ∀ how name, tree.HasTarget registry how name → name ∈ inputs) (e : Environment)
    (rows : List (List Float)) :
    (x.evaluateRows e inputs rows).1 = x.evaluateApart e inputs rows ∧
    (∃ s, Scan.Ends (x.answer e inputs) rows s ∧ s.outcome = x.evaluateApart e inputs rows) ∧
    (∀ s, Scan.Steps (x.answer e inputs) (.start rows) s →
      ∃ s', Scan.Steps (x.answer e inputs) s s' ∧ s'.Finished) ∧
    ((∃ values, rows.map (x.answer e inputs) = values.map .ok ∧
        (x.evaluateRows e inputs rows).1 = .ok values ∧
        ∀ s, Scan.Ends (x.answer e inputs) rows s → s.outcome = .ok values) ∨
      ∃ before row after halt, rows = before ++ row :: after ∧
        (∀ r ∈ before, ∃ v, x.answer e inputs r = .ok v) ∧
        x.answer e inputs row = .error halt ∧
        (x.evaluateRows e inputs rows).1 = .error halt ∧
        ∀ s, Scan.Ends (x.answer e inputs) rows s →
          ∃ row' ∈ rows, ∃ halt', x.answer e inputs row' = .error halt' ∧
            s.outcome = .error halt') := by
  have same : (x.evaluateRows e inputs rows).1 = x.evaluateApart e inputs rows :=
    evaluateRows_of_reuses (.refl inputs e) compiled written rows
  have apart : x.evaluateApart e inputs rows = rows.mapM (x.answer e inputs) := rfl
  refine ⟨same, Scan.exists_ends_mapM (x.answer e inputs) rows,
    fun s _ => Scan.exists_finished (x.answer e inputs) s, ?_⟩
  rw [same, apart]
  rcases Scan.mapM_cases (x.answer e inputs) rows with
    ⟨values, succeed, outcome⟩ | ⟨before, row, after, halt, split, succeed, failed, outcome⟩
  · exact .inl ⟨values, succeed, outcome, fun s ends => ends.outcome_of_ok succeed⟩
  · have mem : row ∈ rows := split ▸ List.mem_append_right _ (.head _)
    exact .inr ⟨before, row, after, halt, split, succeed, failed, outcome,
      fun s ends => ends.outcome_of_error mem failed⟩

/-- The second row overwrites what the first one has left in `x`. -/
theorem evaluateRows_agrees_with_workers_of_accumulation :
    let tree : Tree := .assign ⟨0, 6⟩ .add (.ident ⟨0, 1⟩ "x") (.ident ⟨5, 6⟩ "y")
    let e : Environment := .fresh (.empty 0) .never 0
    let rows : List (List Float) := [[1, 2], [3, 4]]
    ∃ x, compile (.empty 0) tree = .ok x ∧
      (∀ how name, tree.HasTarget (.empty 0) how name → name ∈ ["x", "y"]) ∧
      (x.evaluateRows e ["x", "y"] rows).1 = .ok [some 3, some 7] ∧
      x.evaluateApart e ["x", "y"] rows = .ok [some 3, some 7] ∧
      ∃ s, Scan.Ends (x.answer e ["x", "y"]) rows s ∧ s.outcome = .ok [some 3, some 7] := by
  intro tree e rows
  obtain ⟨x, compiled⟩ : ∃ x, compile (.empty 0) tree = .ok x := ⟨_, rfl⟩
  have written : ∀ how name, tree.HasTarget (.empty 0) how name → name ∈ ["x", "y"] := by
    rintro how name ⟨node, scope, span, held, writes⟩
    subst tree
    cases held with
    | self =>
      cases writes with
      | compound _ named =>
        cases named
        exact .head _
    | part mem held =>
      -- the other nodes are variables, which write nothing
      simp only [Tree.parts, List.mem_cons, Prod.mk.injEq, List.not_mem_nil, or_false] at mem
      rcases mem with ⟨rfl, rfl⟩ | ⟨rfl, rfl⟩ <;> cases held with
        | self => cases writes
        | part mem => cases mem
  have run : (compile (.empty 0) tree).map (fun x => (x.evaluateRows e ["x", "y"] rows).1) =
      .ok (.ok [some 3, some 7]) := by
    subst e tree rows
    decide +kernel
  rw [compiled] at run
  have sequential : (x.evaluateRows e ["x", "y"] rows).1 = .ok [some 3, some 7] :=
    Except.ok.inj run
  obtain ⟨same, workers, -⟩ := evaluateRows_agrees_with_workers compiled written e rows
  rw [← same, sequential] at workers
  exact ⟨x, compiled, written, sequential, same.symm.trans sequential, workers⟩

end Expression
end ShapeScript
