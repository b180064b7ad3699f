import ShapeScript.Proofs.Walk.InStep

/-!
# The variables of an expression are all that it depends on

The variables noted while compiling are those that a node names (`Expression.uses_iff`), and a run
neither reads nor writes any other. So two runs stay in step as long as their slots agree on them
(`Expression.evaluate_eq_of_agreeOn`).
-/

namespace ShapeScript

namespace Slots

/-- The same variables and constants with the same values, as far as names in use go. -/
def AgreeOn (used : String → Prop) (s s' : Slots) : Prop :=
  ∀ name, used name → s.slot? name = s'.slot? name

theorem AgreeOn.write {used : String → Prop} {s s' : Slots} (h : s.AgreeOn used s') (name : String)
    (v : Float) : (s.write name v).AgreeOn used (s'.write name v) := by
  intro other hused
  rw [slot?_write, slot?_write]
  split
  · rfl
  · exact h other hused

end Slots

namespace Expression

variable {registry : Registry} {tree : Tree} {x : Expression}

/-- An expression uses the variables that the nodes of its tree name. -/
theorem uses_iff (compiled : compile registry tree = .ok x) (name : String) :
    x.uses name = true ↔
      ∃ node scope, tree.Holds .outermost node scope ∧ node.named? = some name := by
  obtain ⟨c, t, h, rfl⟩ := compile_ok.mp compiled
  rw [uses, List.contains_iff_mem, Std.TreeSet.mem_toList, tree.mem_vars_of_compile .outermost h]
  simp [Tally.zero]

/-- In two environments on the same registry with the same limits, whose slots agree on the
variables that the expression uses, evaluating gives the same, and the slots agree afterwards. -/
theorem evaluate_eq_of_agreeOn (compiled : compile registry tree = .ok x) {e e' : Environment}
    (same_registry : e.setting.registry = e'.setting.registry)
    (same_ceiling : e.setting.ceiling = e'.setting.ceiling)
    (same_expired : e.isExpired = e'.isExpired)
    (agree : e.slots.AgreeOn (x.uses · = true) e'.slots) :
    (x.evaluate e).1 = (x.evaluate e').1 ∧
      (x.evaluate e).2.slots.AgreeOn (x.uses · = true) (x.evaluate e').2.slots := by
  let P : Pairing := {
    left := e.setting
    right := e'.setting
    slots := Slots.AgreeOn (x.uses · = true)
    cut := fun _ => False
    function? := fun id => by rw [same_registry]
    ceiling := .inl same_ceiling
    expired := .inl same_expired }
  have laws : WalkLaws P registry tree .outermost id (fun _ => (· = ·)) := by
    refine .of_slots ?_ fun _ _ hs _ => hs.write _ _
    intro node scope var s s' held named hs
    exact hs var ((uses_iff compiled var).mpr ⟨node, scope, held, named⟩)
  rw [evaluate, evaluate, ← same_registry]
  split
  · exact ⟨rfl, agree⟩
  · exact runIn_inStep (code_inStep compiled laws) (fun _ => id) rfl rfl agree

/-- A constant that the expression does not use makes no difference. -/
theorem evaluate_eq_of_agreeOn_of_unused_constant :
    let tree : Tree := .binary ⟨0, 3⟩ .add (.ident ⟨0, 1⟩ "x") (.literal ⟨2, 3⟩ "1")
    let e : Environment := (Environment.fresh (.empty 0) .never 0).define "x" 5
    ∃ x, compile (.empty 0) tree = .ok x ∧
      (x.evaluate e).1 = (x.evaluate (e.define "y" 2)).1 ∧
      (x.evaluate e).2.slots.AgreeOn (x.uses · = true) (x.evaluate (e.define "y" 2)).2.slots := by
  intro tree e
  have compiled : compile (.empty 0) tree = .ok _ := rfl
  refine ⟨_, compiled, evaluate_eq_of_agreeOn compiled rfl rfl rfl ?_⟩
  intro name used
  have ne : "y" ≠ name := by
    rintro rfl
    revert used
    decide
  exact ((e.slots.slot?_define "y" name 2).trans (if_neg ne)).symm

end Expression
end ShapeScript
