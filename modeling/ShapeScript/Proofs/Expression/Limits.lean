import ShapeScript.Proofs.Environment.Slots
import ShapeScript.Proofs.Walk.InStep

/-!
# Limits only cut evaluations short

The ceiling of iterations and the deadline are looked at by loops alone, and a loop that meets them
fails for good. So an evaluation that has not met them goes on as before where they are looser
(`Expression.evaluate_of_loosens`), and two evaluations that differ in their limits alone and have
not met them are the same: both are the one with the looser limits of the two
(`Expression.limits_only_cut_short`).
-/

namespace ShapeScript

/-- The run took longer than it may. -/
inductive RunFault.OfLimit : RunFault → Prop where
  | timeout : OfLimit .timeout
  | iterationLimit (limit : Nat) : OfLimit (.iterationLimit limit)

/-- The second environment lets a run go on wherever the first one does. -/
structure Environment.Loosens (e e' : Environment) : Prop where
  ceiling : e.setting.ceiling ≤ e'.setting.ceiling
  expired : e'.isExpired = true → e.isExpired = true

namespace Expression

variable {registry : Registry} {tree : Tree} {x : Expression} {e e' : Environment}

/-- The evaluation has met a limit. -/
def MeetsLimit (result : Evaluated) : Prop :=
  ∃ fault span?, fault.OfLimit ∧ result = .error (.error ⟨fault, span?⟩)

/-- With looser limits, an evaluation that has not met them is the same. -/
private theorem evaluate_of_loosens (compiled : compile registry tree = .ok x)
    (same_registry : e.setting.registry = e'.setting.registry) (same : e.slots.Same e'.slots)
    (looser : e.Loosens e') :
    MeetsLimit (x.evaluate e).1 ∨
      (x.evaluate e).1 = (x.evaluate e').1 ∧
        (x.evaluate e).2.slots.Same (x.evaluate e').2.slots := by
  let P : Pairing := {
    left := e.setting
    right := e'.setting
    slots := Slots.Same
    cut := RunFault.OfLimit
    function? := fun id => by rw [same_registry]
    ceiling := .inr ⟨looser.ceiling, .iterationLimit⟩
    expired := by
      have expired := looser.expired
      rw [Environment.isExpired, Environment.isExpired] at expired
      cases h : e'.setting.deadline.isExpired e'.setting.now with
      | true => exact .inl (expired h)
      | false => exact .inr ⟨rfl, .timeout⟩ }
  have laws : WalkLaws P registry tree .outermost id (fun _ => (· = ·)) :=
    .of_slots (fun _ _ hs => hs _) fun _ _ hs _ => hs.write _ _
  rw [evaluate, evaluate, ← same_registry]
  split
  · exact .inr ⟨rfl, same⟩
  · rcases runIn_inStep_or_cut (code_inStep compiled laws) rfl rfl same with
      ⟨fault, span, limit, ended⟩ | same
    · exact .inl ⟨fault, some span, limit, ended⟩
    · exact .inr same

/-- Limits only cut evaluations short. On equal slots, two evaluations that have not met a limit are
the same whatever their limits are, and one that has not met a limit is the same wherever the limits
are looser, be it the ceiling or the deadline. -/
theorem limits_only_cut_short (compiled : compile registry tree = .ok x)
    (same_registry : e.setting.registry = e'.setting.registry) (same : e.slots.Same e'.slots) :
    (¬MeetsLimit (x.evaluate e).1 → ¬MeetsLimit (x.evaluate e').1 →
      (x.evaluate e).1 = (x.evaluate e').1 ∧
        (x.evaluate e).2.slots.Same (x.evaluate e').2.slots) ∧
    (e.Loosens e' → ¬MeetsLimit (x.evaluate e).1 →
      (x.evaluate e).1 = (x.evaluate e').1 ∧
        (x.evaluate e).2.slots.Same (x.evaluate e').2.slots) := by
  constructor
  · intro unmet unmet'
    -- both are the evaluation with the higher ceiling and without a deadline
    let loose : Environment :=
      (e.withCeiling (max e.setting.ceiling e'.setting.ceiling)).withDeadline .never
    have looser : e.Loosens loose := ⟨Nat.le_max_left _ _, nofun⟩
    have looser' : e'.Loosens loose := ⟨Nat.le_max_right _ _, nofun⟩
    have same_loose : e.slots.Same loose.slots := .refl _
    have same_loose' : e'.slots.Same loose.slots := same.symm
    have loose_registry : e.setting.registry = loose.setting.registry := rfl
    have loose_registry' : e'.setting.registry = loose.setting.registry := same_registry.symm
    obtain ⟨result, slots⟩ :=
      (evaluate_of_loosens compiled loose_registry same_loose looser).resolve_left unmet
    obtain ⟨result', slots'⟩ :=
      (evaluate_of_loosens compiled loose_registry' same_loose' looser').resolve_left unmet'
    exact ⟨result.trans result'.symm, slots.trans slots'.symm⟩
  · intro looser unmet
    exact (evaluate_of_loosens compiled same_registry same looser).resolve_left unmet

/-- The loop runs twice, which is as often as the lower ceiling lets it. -/
theorem limits_only_cut_short_of_raised_ceiling :
    let tree : Tree := .countedLoop ⟨0, 20⟩ "i" (.literal ⟨1, 2⟩ "1") (.literal ⟨3, 4⟩ "2")
      (.assign ⟨5, 12⟩ .assign (.ident ⟨5, 6⟩ "x")
        (.binary ⟨7, 12⟩ .add (.ident ⟨7, 8⟩ "i") (.literal ⟨9, 10⟩ "1")))
    let e : Environment := (Environment.fresh (.empty 0) .never 0).withCeiling 2
    let e' : Environment := e.withCeiling 7
    ∃ x, compile (.empty 0) tree = .ok x ∧ ¬MeetsLimit (x.evaluate e).1 ∧
      (x.evaluate e).1 = (x.evaluate e').1 ∧
      (x.evaluate e).2.slots.Same (x.evaluate e').2.slots := by
  intro tree e e'
  obtain ⟨x, compiled⟩ : ∃ x, compile (.empty 0) tree = .ok x := ⟨_, rfl⟩
  have same_registry : e.setting.registry = e'.setting.registry := rfl
  have same : e.slots.Same e'.slots := .refl _
  have looser : e.Loosens e' := ⟨by decide, nofun⟩
  have run : (compile (.empty 0) tree).map (fun x => (x.evaluate e).1) = .ok (.ok (some 3)) := by
    subst e tree
    decide +kernel
  have unmet : ¬MeetsLimit (x.evaluate e).1 := by
    rintro ⟨fault, span?, -, ended⟩
    rw [compiled, Except.map, ended] at run
    cases run
  exact ⟨x, compiled, unmet, (limits_only_cut_short compiled same_registry same).2 looser unmet⟩

end Expression
end ShapeScript
