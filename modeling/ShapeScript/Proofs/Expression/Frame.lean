import ShapeScript.Proofs.Walk.InStep

/-!
# What an evaluation may change

A *frame* relates the slots before and after: only targets change, constants stay, variables stay
variables, nothing goes away, and only targets that may be new come into being (`Frame`). A single
write keeps the frame (`Frame.write`), so by the walk in step with itself every run does, however it
ends.
-/

namespace ShapeScript

/-- The slots after a run that writes to no others than the targets. -/
structure Frame (targets : Write → String → Prop) (s s' : Slots) : Prop where
  untouched {name} : (∀ how, ¬targets how name) → s'.slot? name = s.slot? name
  constant {name v} : s.slot? name = some (.const v) → s'.slot? name = some (.const v)
  var {name v} : s.slot? name = some (.var v) → ∃ w, s'.slot? name = some (.var w)
  new {name} : s.slot? name = none →
    s'.slot? name = none ∨ targets .bind name ∧ ∃ w, s'.slot? name = some (.var w)

namespace Frame

variable {targets : Write → String → Prop} {s s' : Slots}

theorem refl (targets : Write → String → Prop) (s : Slots) : Frame targets s s where
  untouched _ := rfl
  constant h := h
  var h := ⟨_, h⟩
  new h := .inl h

/-- No variable becomes a constant, and no constant comes into being. -/
theorem constant_before {name : String} {v : Float} (h : Frame targets s s')
    (held : s'.slot? name = some (.const v)) : s.slot? name = some (.const v) := by
  rcases before : s.slot? name with _ | w | w
  · rcases h.new before with free | ⟨-, w, var⟩
    · rw [free] at held
      cases held
    · rw [var] at held
      cases held
  · obtain ⟨w', var⟩ := h.var before
    rw [var] at held
    cases held
  · rw [h.constant before] at held
    exact held

/-- Writing to a target keeps the frame if the slot is fit for it. -/
theorem write {how : Write} {var : String} (h : Frame targets s s') (target : targets how var)
    (allowed : how.Allows (s'.slot? var)) (v : Float) : Frame targets s (s'.write var v) where
  untouched {name} no_target := by
    have ne : var ≠ name := by
      rintro rfl
      exact no_target how target
    rw [Slots.slot?_write, if_neg ne]
    exact h.untouched no_target
  constant {name w} held := by
    have held' := h.constant held
    have ne : var ≠ name := by
      rintro rfl
      rw [held'] at allowed
      cases how with
      | bind => exact allowed w rfl
      | update =>
        obtain ⟨_, heq⟩ := allowed
        cases heq
    rw [Slots.slot?_write, if_neg ne]
    exact held'
  var {name w} held := by
    rw [Slots.slot?_write]
    split
    · exact ⟨v, rfl⟩
    · exact h.var held
  new {name} free := by
    rw [Slots.slot?_write]
    split
    next heq =>
      subst heq
      refine .inr ⟨?_, v, rfl⟩
      cases how with
      | bind => exact target
      | update =>
        -- a variable to update is there, so it has been made by an earlier write
        obtain ⟨w, held⟩ := allowed
        rcases h.new free with still_free | ⟨bound, -⟩
        · rw [held] at still_free
          cases still_free
        · exact bound
    next => exact h.new free

theorem trans {s'' : Slots} (h : Frame targets s s') (h' : Frame targets s' s'') :
    Frame targets s s'' where
  untouched no_target := (h'.untouched no_target).trans (h.untouched no_target)
  constant held := h'.constant (h.constant held)
  var held := by
    obtain ⟨_, held'⟩ := h.var held
    exact h'.var held'
  new free := by
    rcases h.new free with still_free | ⟨target, _, held⟩
    · exact h'.new still_free
    · exact .inr ⟨target, h'.var held⟩

theorem mono {targets' : Write → String → Prop}
    (more : ∀ how name, targets how name → targets' how name) (h : Frame targets s s') :
    Frame targets' s s' where
  untouched no_target := h.untouched fun how target => no_target how (more how _ target)
  constant := h.constant
  var := h.var
  new free := (h.new free).imp_right fun ⟨target, held⟩ => ⟨more .bind _ target, held⟩

end Frame

/-- Somewhere in the tree, a node writes the variable. -/
def Tree.HasTarget (registry : Registry) (tree : Tree) (how : Write) (var : String) : Prop :=
  ∃ node scope span, tree.Holds .outermost node scope ∧ node.Writes registry how var span

variable {registry : Registry} {tree : Tree}

/-- What a tree compiles to keeps the frame of the targets in the tree, however its run ends. -/
theorem Tree.frame_of_compile {outer : Scope} {t t' : Tally} {c : Compiled}
    {targets : Write → String → Prop} (h : tree.compile registry outer t = .ok (c, t'))
    (covered : ∀ {node scope how var span}, tree.Holds outer node scope →
      node.Writes registry how var span → targets how var) (setting : Setting) (s : Slots) :
    Frame targets s (Run.slotsAfter (c.code setting s)) := by
  let P : Pairing := .within setting fun s₁ s₂ => s₁ = s₂ ∧ Frame targets s s₁
  have laws : WalkLaws P registry tree outer id (fun _ => (· = ·)) := by
    refine .of_slots (fun _ _ hs => congrArg (Slots.slot? · _) hs.1) ?_
    intro node scope how var span s₁ s₂ v held writes hs allowed
    exact ⟨congrArg (Slots.write · _ _) hs.1, hs.2.write (covered held writes) allowed v⟩
  have ends := laws.code_inStep .self h s s ⟨rfl, .refl _ _⟩
  change P.Matches _ (c.code setting s) (tree.walk registry outer setting s) at ends
  generalize c.code setting s = result, tree.walk registry outer setting s = result' at ends
  cases ends with
  | ok hs | error _ hs => exact hs.2
  | cut hc => cases hc

namespace Expression

variable {x : Expression}

theorem slots_runIn (e : Environment) (code : Code) :
    (runIn e code).2.slots = Run.slotsAfter (code e.setting e.slots) := by
  rw [runIn]
  cases code e.setting e.slots <;> rfl

/-- Running the code keeps the frame, however it ends. -/
theorem frame_of_runIn (compiled : compile registry tree = .ok x) (e : Environment) :
    Frame (tree.HasTarget registry) e.slots (runIn e x.code).2.slots := by
  obtain ⟨c, t, h, rfl⟩ := compile_ok.mp compiled
  rw [slots_runIn]
  exact tree.frame_of_compile h (fun held writes => ⟨_, _, _, held, writes⟩) e.setting e.slots

theorem setting_runIn (e : Environment) (code : Code) : (runIn e code).2.setting = e.setting := by
  rw [runIn]
  split <;> rfl

theorem setting_evaluate (x : Expression) (e : Environment) :
    (x.evaluate e).2.setting = e.setting := by
  rw [evaluate]
  split
  · rfl
  · exact setting_runIn e x.code

/-- However an evaluation ends, it leaves the setting as it is and keeps the frame of the targets
of the tree. -/
theorem frame_of_evaluate (compiled : compile registry tree = .ok x) (e : Environment) :
    (x.evaluate e).2.setting = e.setting ∧
      Frame (tree.HasTarget registry) e.slots (x.evaluate e).2.slots := by
  rw [evaluate]
  split
  · exact ⟨rfl, .refl _ _⟩
  · exact ⟨setting_runIn e x.code, frame_of_runIn compiled e⟩

/-- The evaluation fails at the step of a variable that is not there, after an assignment. -/
theorem frame_of_evaluate_of_failed_step :
    let tree : Tree := .block ⟨0, 9⟩
      [.assign ⟨1, 4⟩ .assign (.ident ⟨1, 2⟩ "x") (.literal ⟨3, 4⟩ "1"),
        .unary ⟨5, 8⟩ .increment (.ident ⟨7, 8⟩ "y")]
    let e : Environment := (Environment.fresh (.empty 0) .never 0).define "c" 2
    ∃ x, compile (.empty 0) tree = .ok x ∧ (x.evaluate e).2.setting = e.setting ∧
      Frame (tree.HasTarget (.empty 0)) e.slots (x.evaluate e).2.slots := by
  intro tree e
  exact ⟨_, rfl, frame_of_evaluate rfl e⟩

end Expression
end ShapeScript
