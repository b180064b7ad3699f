import ShapeScript.Syntax.Interner

/-!
# Numbers of names

An interner gives out numbers one to one (`Interner.Lawful`), whatever it has interned before, and a
number once given out is good for ever (`Interner.Extends`). Which number a string has depends on
what has been interned before it.
-/

namespace ShapeScript.Interner

/-- Strings and their numbers belong together one to one. -/
def Lawful (i : Interner) : Prop := ∀ s n, i.find? s = some n ↔ i.text? n = some s

/-- `j` is `i` after more strings have been interned. -/
structure Extends (i j : Interner) : Prop where
  find? {s n} : i.find? s = some n → j.find? s = some n
  text? {s n} : i.text? n = some s → j.text? n = some s

namespace Extends

variable {i j k : Interner}

theorem refl (i : Interner) : i.Extends i := ⟨id, id⟩

theorem trans (h : i.Extends j) (h' : j.Extends k) : i.Extends k :=
  ⟨fun found => h'.find? (h.find? found), fun given => h'.text? (h.text? given)⟩

end Extends

theorem lawful_fresh : fresh.Lawful := by
  intro s ⟨n⟩
  simp only [fresh, find?, text?, Std.TreeMap.getElem?_insert, Std.LawfulEqCmp.compare_eq_iff_eq,
    Std.TreeMap.getElem?_emptyc]
  cases n with
  | zero => simp [Name.empty, eq_comm]
  | succ n => simp [Name.empty]

theorem Lawful.intern {i : Interner} (lawful : i.Lawful) (s : String) : (i.intern s).2.Lawful := by
  rw [intern_eq_issue, issue]
  cases free : i.find? s with
  | some n => exact lawful
  | none =>
    -- no number stands for `s` so far, and the new number stands for no other string
    have unused : ∀ n, i.text? n ≠ some s := by
      intro n given
      rw [(lawful s n).mpr given] at free
      cases free
    intro other ⟨n⟩
    have numbered := lawful other ⟨n⟩
    have new := unused ⟨n⟩
    simp only [find?, text?, Std.TreeMap.getElem?_insert, Std.LawfulEqCmp.compare_eq_iff_eq,
      Array.getElem?_push] at numbered new free ⊢
    grind

theorem Extends.intern (i : Interner) (s : String) : i.Extends (i.intern s).2 := by
  rw [intern_eq_issue, issue]
  cases free : i.find? s with
  | some n => exact .refl i
  | none =>
    refine ⟨fun {other n} found => ?_, fun {other n} given => ?_⟩
    · have ne : s ≠ other := by
        rintro rfl
        rw [free] at found
        cases found
      simp only [Interner.find?, Std.TreeMap.getElem?_insert, Std.LawfulEqCmp.compare_eq_iff_eq, ne,
        if_false]
      exact found
    · have used : n.index < i.texts.size := (Array.getElem?_eq_some_iff.mp given).1
      simp only [Interner.text?, Array.getElem?_push, Nat.ne_of_lt used, if_false]
      exact given

theorem text?_intern {i : Interner} (lawful : i.Lawful) (s : String) :
    (i.intern s).2.text? (i.intern s).1 = some s := by
  rw [intern_eq_issue, issue]
  cases found : i.find? s with
  | some n => exact (lawful s n).mp found
  | none => simp [text?]

/-- The interner after strings have been interned one after the other. -/
def internAll (i : Interner) (strings : List String) : Interner :=
  strings.foldl (fun i s => (i.intern s).2) i

theorem Lawful.internAll {i : Interner} (lawful : i.Lawful) (strings : List String) :
    (i.internAll strings).Lawful := by
  induction strings generalizing i with
  | nil => exact lawful
  | cons s rest ih => exact ih (lawful.intern s)

theorem Extends.internAll (i : Interner) (strings : List String) :
    i.Extends (i.internAll strings) := by
  induction strings generalizing i with
  | nil => exact .refl i
  | cons s rest ih => exact (Extends.intern i s).trans (ih _)

end ShapeScript.Interner
