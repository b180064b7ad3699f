import ShapeScript.Proofs.Number.Equality
import ShapeScript.Proofs.Compile.Success

/-!
# The table of cases

While the arms of a switch are compiled, the table answers for any value with the first case that
equals it (`TakenCases.first?`). Taking a case adds the value of its label, and answers for other
values as before.
-/

namespace ShapeScript

open Compilation Compile

/-- The first case that equals a value. -/
def TakenCases.first? (taken : TakenCases) (v : Float) : Option TakenCase :=
  (caseKey? v).bind (taken[·]?)

theorem first?_empty (v : Float) : TakenCases.first? ∅ v = none := by
  cases h : caseKey? v <;> simp [TakenCases.first?, h]

variable {t t' : Tally} {taken taken' : TakenCases} {v label : Float} {position : Nat} {span : Span}

/-- The value of a label is free before its case is taken. -/
theorem first?_eq_none_of_takeCase (h : takeCase taken label position span t = .ok (taken', t'))
    (eq : (v == label) = true) : taken.first? v = none := by
  obtain ⟨key, hv, hlabel⟩ := beq_iff_caseKey?.mp eq
  rw [TakenCases.first?, hv]
  rcases (takeCase_ok.mp h).1 with ⟨nan, -⟩ | ⟨key', hkey', free, -⟩
  · cases hlabel.symm.trans nan
  · cases hlabel.symm.trans hkey'
    exact free

theorem first?_takeCase_of_ne (h : takeCase taken label position span t = .ok (taken', t'))
    (ne : ¬(v == label) = true) : taken'.first? v = taken.first? v := by
  rcases (takeCase_ok.mp h).1 with ⟨-, rfl⟩ | ⟨key, hkey, -, rfl⟩
  · rfl
  · rw [TakenCases.first?, TakenCases.first?]
    cases hv : caseKey? v with
    | none => rfl
    | some key' =>
      have keys_ne : key ≠ key' := by
        rintro rfl
        exact ne (beq_iff_caseKey?.mpr ⟨key, hv, hkey⟩)
      simp [Std.TreeMap.getElem?_insert, keys_ne]

theorem first?_takeCase_of_eq (h : takeCase taken label position span t = .ok (taken', t'))
    (eq : (v == label) = true) : taken'.first? v = some ⟨position, span⟩ := by
  obtain ⟨key, hv, hlabel⟩ := beq_iff_caseKey?.mp eq
  rcases (takeCase_ok.mp h).1 with ⟨hnone, -⟩ | ⟨key', hkey', -, rfl⟩
  · cases hlabel.symm.trans hnone
  · cases hlabel.symm.trans hkey'
    simp [TakenCases.first?, hv]

/-- Later cases leave the earlier ones where they are. -/
theorem first?_takeCase_of_some {first : TakenCase}
    (h : takeCase taken label position span t = .ok (taken', t'))
    (found : taken.first? v = some first) : taken'.first? v = some first := by
  rcases (takeCase_ok.mp h).1 with ⟨-, rfl⟩ | ⟨key, -, free, rfl⟩
  · exact found
  · obtain ⟨key', hv, held⟩ := Option.bind_eq_some_iff.mp found
    have keys_ne : key ≠ key' := by
      rintro rfl
      rw [free] at held
      cases held
    simp [TakenCases.first?, hv, Std.TreeMap.getElem?_insert, keys_ne, held]

end ShapeScript
