import Mathlib.Data.List.Find
import ShapeScript.Function.Registry

/-!
# Registries only grow

A registry *extends* another one if it is the same registry at a later time: what a name and arity
resolved to then, they resolve to now (`Registry.Extends`). Registering extends
(`Registry.Extends.register`), as long as names lead to numbers in use only.
-/

namespace ShapeScript.Registry

variable {r r' r'' : Registry} {name : String} {arity : Nat} {id : FunctionId} {f : HostFunction}

/-- The function that a resolved number stands for takes as many arguments as were asked for. -/
theorem exists_function?_of_resolve? (h : r.resolve? name arity = some id) :
    ∃ f, r.function? id = some f ∧ f.arity = arity := by
  have found := List.find?_some h
  rw [beq_iff_eq, arity?, Option.map_eq_some_iff] at found
  exact found

theorem length_params_of_resolve? (h : r.resolve? name arity = some id) :
    (r.params id).length = arity := by
  obtain ⟨f, hf, rfl⟩ := exists_function?_of_resolve? h
  rw [params, hf]
  rfl

/-- `r'` is `r` after registrations. -/
structure Extends (r r' : Registry) : Prop where
  identity : r'.identity = r.identity
  resolve? : ∀ {name arity id}, r.resolve? name arity = some id → r'.resolve? name arity = some id
  function? : ∀ {id f}, r.function? id = some f → r'.function? id = some f

namespace Extends

theorem refl (r : Registry) : r.Extends r := ⟨rfl, id, id⟩

theorem trans (h : r.Extends r') (h' : r'.Extends r'') : r.Extends r'' :=
  ⟨h'.identity.trans h.identity, fun hr => h'.resolve? (h.resolve? hr),
    fun hf => h'.function? (h.function? hf)⟩

theorem params (h : r.Extends r') (resolved : r.resolve? name arity = some id) :
    r'.params id = r.params id := by
  obtain ⟨f, hf, -⟩ := exists_function?_of_resolve? resolved
  rw [Registry.params, Registry.params, hf, h.function? hf]

end Extends

/-! ## Registering -/

/-- Names lead to numbers in use only. -/
def Numbered (r : Registry) : Prop := ∀ name, ∀ id ∈ r.overloads name, id.index < r.size

theorem numbered_empty (identity : Nat) : (empty identity).Numbered := by
  intro name id h
  simp [empty, overloads] at h

theorem Numbered.insert (h : r.Numbered) (f : HostFunction) : (r.insert f).2.Numbered := by
  intro name id hid
  have size : (r.insert f).2.size = r.size + 1 := Array.size_push ..
  rw [overloads_insert] at hid
  split at hid
  · rcases List.mem_append.mp hid with hid | hid
    · exact size ▸ Nat.lt_succ_of_lt (h name id hid)
    · cases List.mem_singleton.mp hid
      exact size ▸ Nat.lt_succ_self _
  · exact size ▸ Nat.lt_succ_of_lt (h name id hid)

theorem function?_insert_of_lt (hid : id.index < r.size) :
    (r.insert f).2.function? id = r.function? id := by
  rw [function?_insert, if_neg]
  rintro rfl
  exact Nat.lt_irrefl _ hid

/-- A new overload stands behind the older ones, so it hides none of them. -/
theorem Extends.insert (h : r.Numbered) (f : HostFunction) : r.Extends (r.insert f).2 where
  identity := rfl
  resolve? := by
    intro name arity id hr
    have same : (r.overloads name).find? (fun id => (r.insert f).2.arity? id == some arity) =
        some id := by
      rw [← hr, Registry.resolve?]
      apply List.find?_congr
      intro id hid
      rw [arity?, arity?, function?_insert_of_lt (h name id hid)]
    rw [Registry.resolve?, overloads_insert]
    split
    · rw [List.find?_append, same, Option.some_or]
    · exact same
  function? := by
    intro id g hg
    have hid : id.index < r.size := (Array.getElem?_eq_some_iff.mp hg).1
    rw [function?_insert_of_lt hid, hg]

theorem Extends.register (h : r.Numbered) (registered : r.register f = .ok (id, r')) :
    r.Extends r' := by
  rw [Registry.register] at registered
  split at registered
  · cases registered
  · cases registered
    exact .insert h f

end ShapeScript.Registry
