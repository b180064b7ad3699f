import Mathlib.Data.List.Sort
import ShapeScript.Function.Catalogue
import ShapeScript.Proofs.Function.Extension

/-!
# The arities of a name

What a registry lists as the arities of a name are those that the name resolves with
(`Registry.mem_arities`), in ascending order. Each of them is listed once if no two functions of the
name take as many arguments (`Registry.Distinct`), which registering makes sure of.
-/

namespace ShapeScript.Registry

variable {r r' : Registry} {name : String} {n : Nat} {id : FunctionId} {f : HostFunction}

theorem mem_arities : n ∈ r.arities name ↔ ∃ id, r.resolve? name n = some id := by
  simp only [arities, List.mem_mergeSort, List.mem_filterMap, resolve?, ← Option.isSome_iff_exists,
    List.find?_isSome, beq_iff_eq]

theorem pairwise_le_arities (r : Registry) (name : String) : (r.arities name).Pairwise (· ≤ ·) :=
  List.pairwise_mergeSort' _ _

/-- The functions of a name differ in how many arguments they take. -/
def Distinct (r : Registry) : Prop :=
  ∀ name, (r.overloads name).Pairwise fun id id' => r.arity? id ≠ r.arity? id'

theorem Distinct.pairwise_lt_arities (h : r.Distinct) (name : String) :
    (r.arities name).Pairwise (· < ·) := by
  have different : ((r.overloads name).filterMap r.arity?).Pairwise (· ≠ ·) := by
    refine (h name).filterMap _ fun id id' ne n arity n' arity' same => ne ?_
    rw [arity, arity', same]
  have nodup : (r.arities name).Pairwise (· ≠ ·) :=
    ((List.mergeSort_perm _ _).pairwise_iff Ne.symm).mpr different
  exact ((pairwise_le_arities r name).and nodup).imp fun both => Nat.lt_of_le_of_ne both.1 both.2

/-! ## Registering -/

theorem arity?_insert_of_lt (hid : id.index < r.size) : (r.insert f).2.arity? id = r.arity? id := by
  rw [arity?, arity?, function?_insert_of_lt hid]

theorem arity?_insert_self (r : Registry) (f : HostFunction) :
    (r.insert f).2.arity? (r.insert f).1 = some f.arity := by
  rw [arity?, function?_insert, if_pos rfl]
  rfl

/-- A new function is found by its own name and arity, unless an older one is. -/
theorem resolve?_insert (h : r.Numbered) (f : HostFunction) (name : String) (n : Nat) :
    (r.insert f).2.resolve? name n =
      (r.resolve? name n).or (if f.name = name ∧ f.arity = n then some (r.insert f).1 else none) := by
  have older : (r.overloads name).find? (fun id => (r.insert f).2.arity? id == some n) =
      r.resolve? name n := by
    apply List.find?_congr
    intro id hid
    rw [arity?_insert_of_lt (h name id hid)]
  rw [resolve?, overloads_insert]
  by_cases named : f.name = name
  · rw [if_pos named, List.find?_append, older, List.find?_singleton, arity?_insert_self]
    simp [named]
  · rw [if_neg named, older, if_neg fun both => named both.1, Option.or_none]

theorem distinct_empty (identity : Nat) : (empty identity).Distinct := by
  intro name
  simp [empty, overloads]

theorem Distinct.insert (h : r.Distinct) (numbered : r.Numbered)
    (free : r.resolve? f.name f.arity = none) : (r.insert f).2.Distinct := by
  intro name
  have kept : (r.overloads name).Pairwise fun id id' =>
      (r.insert f).2.arity? id ≠ (r.insert f).2.arity? id' := by
    refine (h name).imp_of_mem fun {id id'} mem mem' ne => ?_
    rwa [arity?_insert_of_lt (numbered name id mem), arity?_insert_of_lt (numbered name id' mem')]
  rw [overloads_insert]
  split
  next named =>
    subst named
    refine List.pairwise_append.mpr ⟨kept, List.pairwise_singleton .., fun id mem id' mem' => ?_⟩
    rw [List.mem_singleton.mp mem', arity?_insert_self, arity?_insert_of_lt (numbered f.name id mem)]
    simpa using List.find?_eq_none.mp free id mem
  next => exact kept

theorem Distinct.register (h : r.Distinct) (numbered : r.Numbered)
    (registered : r.register f = .ok (id, r')) : r'.Distinct := by
  rw [Registry.register] at registered
  split at registered
  · cases registered
  next free =>
    cases registered
    exact h.insert numbered (Option.not_isSome_iff_eq_none.mp free)

/-- Functions that differ in name or arity can be added without looking for older ones. -/
theorem Distinct.insertAll {fs : List HostFunction} (h : r.Distinct) (numbered : r.Numbered)
    (free : ∀ f ∈ fs, r.resolve? f.name f.arity = none)
    (different : fs.Pairwise fun f g => ¬(f.name = g.name ∧ f.arity = g.arity)) :
    (fs.foldl (fun r f => (r.insert f).2) r).Distinct := by
  induction fs generalizing r with
  | nil => exact h
  | cons f rest ih =>
    obtain ⟨free_first, free⟩ := List.forall_mem_cons.mp free
    obtain ⟨differs, different⟩ := List.pairwise_cons.mp different
    refine ih (h.insert numbered free_first) (numbered.insert f) (fun g mem => ?_) different
    rw [resolve?_insert numbered, free g mem, if_neg (differs g mem)]
    rfl

theorem distinct_withMath (identity : Nat) : (withMath identity).Distinct := by
  refine (distinct_empty identity).insertAll (numbered_empty identity) (fun f _ => ?_) ?_
  · simp [empty, overloads, resolve?]
  · decide +kernel

end ShapeScript.Registry
