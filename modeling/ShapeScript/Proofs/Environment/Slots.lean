import ShapeScript.Environment.Slots

/-!
# Slots as functions of their names

Two tables with the same slot under every name cannot be told apart by a run (`Slots.Same`), and
writing keeps them so. Assigning writes unless the name is bound to a constant
(`Slots.assign_eq_ok_iff`).
-/

namespace ShapeScript.Slots

theorem assign_eq_ok_iff {s s' : Slots} {name : String} {v : Float} :
    s.assign name v = .ok s' ↔
      (∀ w, s.slot? name ≠ some (.const w)) ∧ s' = s.write name v := by
  rw [assign]
  split
  next held => simp [held]
  next no_constant =>
    have allowed : ∀ w, s.slot? name ≠ some (.const w) := no_constant
    simp [allowed, eq_comm]

/-- Every name is bound to the same variable or constant, or is free in both. -/
def Same (s s' : Slots) : Prop := ∀ name, s.slot? name = s'.slot? name

namespace Same

variable {s s' s'' : Slots}

theorem refl (s : Slots) : s.Same s := fun _ => rfl

theorem symm (h : s.Same s') : s'.Same s := fun name => (h name).symm

theorem trans (h : s.Same s') (h' : s'.Same s'') : s.Same s'' :=
  fun name => (h name).trans (h' name)

theorem write (h : s.Same s') (name : String) (v : Float) :
    (s.write name v).Same (s'.write name v) := by
  intro other
  rw [slot?_write, slot?_write, h other]

end Same

end ShapeScript.Slots
