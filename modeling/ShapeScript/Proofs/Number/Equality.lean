import Mathlib
import ShapeScript.Run.Switch

/-!
# Equality of numbers and the keys of cases

`==` compares values: a NaN equals nothing, both zeros are equal, and any other number equals only
itself (`Binary64.beq_iff`). Hence two numbers are equal exactly if they have the same key in the
table of a switch (`beq_iff_caseKey?`).
-/

namespace ShapeScript

namespace Binary64

theorem beq_zero_iff {v : Float} : (v == 0) = true ↔ v = 0 ∨ v = -0 := by
  have zero : (0 : Float) ≠ .nan := by decide
  have negative_zero : (-0 : Float) ≠ .nan := by decide
  rw [Float.beq_iff_ne_nan_and_eq]
  constructor
  · rintro ⟨-, -, rfl | ⟨rfl, -⟩ | ⟨rfl, -⟩⟩
    · exact .inl rfl
    · exact .inl rfl
    · exact .inr rfl
  · rintro (rfl | rfl)
    · exact ⟨zero, zero, .inl rfl⟩
    · exact ⟨negative_zero, zero, .inr (.inr ⟨rfl, rfl⟩)⟩

theorem isNaN_eq_false_of_beq_zero {v : Float} (h : (v == 0) = true) : v.isNaN = false := by
  rcases beq_zero_iff.mp h with rfl | rfl <;> decide

theorem beq_zero_of_toBits {v : Float} (h : v.toBits = 0) : (v == 0) = true :=
  beq_zero_iff.mpr (.inl (Float.toBits_inj.mp (h.trans (by decide))))

theorem beq_iff {a b : Float} :
    (a == b) = true ↔ (a == 0) = true ∧ (b == 0) = true ∨ a = b ∧ a.isNaN = false := by
  rw [Float.isNaN_eq_decide_eq_nan, decide_eq_false_iff_not]
  constructor
  · intro h
    obtain ⟨number, -, rfl | ⟨rfl, rfl⟩ | ⟨rfl, rfl⟩⟩ := Float.beq_iff_ne_nan_and_eq.mp h
    · exact .inr ⟨rfl, number⟩
    · exact .inl ⟨by decide, by decide⟩
    · exact .inl ⟨by decide, by decide⟩
  · rintro (⟨ha, hb⟩ | ⟨rfl, number⟩)
    · exact BEq.trans ha (BEq.symm hb)
    · exact Float.beq_self_iff.mpr number

end Binary64

/-! ## Keys of cases -/

theorem caseKey?_eq_some_iff {v : Float} {key : UInt64} :
    caseKey? v = some key ↔ (v == 0) = true ∧ key = 0 ∨
      (v == 0) = false ∧ v.isNaN = false ∧ key = v.toBits := by
  cases zero : v == 0 with
  | true =>
    simp only [caseKey?, zero, Binary64.isNaN_eq_false_of_beq_zero zero, Bool.false_eq_true,
      if_false, if_true, Option.some.injEq, true_and, false_and, or_false, eq_comm]
  | false =>
    cases nan : v.isNaN <;>
      simp only [caseKey?, zero, nan, Bool.false_eq_true, if_false, if_true, Option.some.injEq,
        true_and, false_and, false_or, reduceCtorEq, eq_comm]

/-- Numbers are equal exactly if they share a key. -/
theorem beq_iff_caseKey? {a b : Float} :
    (a == b) = true ↔ ∃ key, caseKey? a = some key ∧ caseKey? b = some key := by
  simp only [caseKey?_eq_some_iff]
  rw [Binary64.beq_iff]
  constructor
  · rintro (⟨ha, hb⟩ | ⟨rfl, number⟩)
    · exact ⟨0, .inl ⟨ha, rfl⟩, .inl ⟨hb, rfl⟩⟩
    · cases zero : (a == 0) with
      | true => exact ⟨0, .inl ⟨rfl, rfl⟩, .inl ⟨rfl, rfl⟩⟩
      | false => exact ⟨a.toBits, .inr ⟨rfl, number, rfl⟩, .inr ⟨rfl, number, rfl⟩⟩
  · rintro ⟨key, ⟨ha, rfl⟩ | ⟨ha, number, rfl⟩, ⟨hb, hk⟩ | ⟨hb, _, hk⟩⟩
    · exact .inl ⟨ha, hb⟩
    · exact .inl ⟨ha, Binary64.beq_zero_of_toBits hk.symm⟩
    · exact .inl ⟨Binary64.beq_zero_of_toBits hk, hb⟩
    · exact .inr ⟨Float.toBits_inj.mp hk, number⟩

end ShapeScript
