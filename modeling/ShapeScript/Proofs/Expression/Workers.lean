import Mathlib
import ShapeScript.Expression

/-!
# A batch of rows and several workers

Workers take the rows of a batch in any order, evaluate each of them by itself and record the
answers. When nothing is left the values are put in the order of the rows; once a failure is
recorded, the rows that nobody has taken may be given up. So a scan can end in many ways
(`Scan.Ends`), but what it comes to depends on the answers of the rows alone: all values in order if
there are only values (`Scan.Ends.outcome_of_ok`), and the failure of some row otherwise
(`Scan.Ends.outcome_of_error`). To take the rows as they come is one of these ways
(`Scan.exists_ends_mapM`).
-/

namespace ShapeScript

/-- What the workers have left to do and what they have recorded. Rows and values stand before the
position of the row. -/
structure Scan where
  waiting : List (List Float × Nat)
  values : List (Option Float × Nat)
  /-- The failure that was recorded first. -/
  failure : Option Halt

namespace Scan

def start (rows : List (List Float)) : Scan := ⟨rows.zipIdx, [], none⟩

/-- A worker takes any of the waiting rows and records its answer. A recorded failure stays. -/
inductive Step (answer : List Float → Evaluated) : Scan → Scan → Prop where
  | value {waiting rest row position v values failure} : waiting.Perm ((row, position) :: rest) →
    answer row = .ok v →
    Step answer ⟨waiting, values, failure⟩ ⟨rest, (v, position) :: values, failure⟩
  | fails {waiting rest row position halt values failure} : waiting.Perm ((row, position) :: rest) →
    answer row = .error halt →
    Step answer ⟨waiting, values, failure⟩ ⟨rest, values, failure.or (some halt)⟩

abbrev Steps (answer : List Float → Evaluated) : Scan → Scan → Prop :=
  Relation.ReflTransGen (Step answer)

/-- The workers may stop: nothing is left, or there is a failure. -/
def Finished (s : Scan) : Prop := s.waiting = [] ∨ s.failure.isSome

/-- The failure, or the values in the order of the rows. -/
def outcome (s : Scan) : Except Halt (List (Option Float)) :=
  match s.failure with
  | some halt => .error halt
  | none => .ok ((s.values.mergeSort fun a b => a.2 ≤ b.2).map (·.1))

/-- A batch of rows can end with this scan. -/
def Ends (answer : List Float → Evaluated) (rows : List (List Float)) (s : Scan) : Prop :=
  Steps answer (start rows) s ∧ s.Finished

variable {answer : List Float → Evaluated} {rows : List (List Float)} {s s' : Scan}

/-! ## Going on -/

private theorem Step.length_lt (h : Step answer s s') : s'.waiting.length < s.waiting.length := by
  cases h with
  | value taken | fails taken =>
    rw [taken.length_eq]
    exact Nat.lt_succ_self _

private theorem finished_or_step (answer : List Float → Evaluated) (s : Scan) :
    s.Finished ∨ ∃ s', Step answer s s' := by
  obtain ⟨waiting, values, failure⟩ := s
  cases waiting with
  | nil => exact .inl (.inl rfl)
  | cons entry rest =>
    obtain ⟨row, position⟩ := entry
    right
    cases h : answer row with
    | ok v => exact ⟨_, .value (.refl _) h⟩
    | error halt => exact ⟨_, .fails (.refl _) h⟩

/-- However far the workers are, they come to an end. -/
theorem exists_finished (answer : List Float → Evaluated) (s : Scan) :
    ∃ s', Steps answer s s' ∧ s'.Finished := by
  induction n : s.waiting.length using Nat.strong_induction_on generalizing s with
  | h n ih =>
    rcases finished_or_step answer s with finished | ⟨s', step⟩
    · exact ⟨s, .refl, finished⟩
    · obtain ⟨s'', steps, finished⟩ := ih _ (n ▸ step.length_lt) s' rfl
      exact ⟨s'', .head step steps, finished⟩

/-! ## What is recorded -/

/-- What is recorded are answers of rows, and as long as there is no failure none is missing. -/
structure Sound (answer : List Float → Evaluated) (rows : List (List Float)) (s : Scan) : Prop where
  waiting : ∀ entry ∈ s.waiting, entry.1 ∈ rows
  failure : ∀ halt, s.failure = some halt → ∃ row ∈ rows, answer row = .error halt
  answers : s.failure = none →
    (s.waiting.map (Prod.map answer id) ++ s.values.map (Prod.map Except.ok id)).Perm
      (rows.map answer).zipIdx

private theorem sound_start (answer : List Float → Evaluated) (rows : List (List Float)) :
    Sound answer rows (start rows) where
  waiting entry h := by
    obtain ⟨row, position⟩ := entry
    exact List.fst_mem_of_mem_zipIdx h
  failure _ h := by cases h
  answers _ := by
    rw [start, List.map_nil, List.append_nil, List.map_zipIdx]

private theorem Sound.step (h : Sound answer rows s) (step : Step answer s s') :
    Sound answer rows s' := by
  cases step with
  | @value waiting rest row position v values failure taken answered =>
    refine ⟨fun entry hentry => ?_, h.failure, fun none => ?_⟩
    · exact h.waiting entry (taken.mem_iff.mpr (.tail _ hentry))
    · refine .trans ?_ (h.answers none)
      have moved := (taken.map (Prod.map answer id)).append_right
        (values.map (Prod.map Except.ok id))
      refine .trans ?_ moved.symm
      simp only [List.map_cons, Prod.map_apply, answered, id_eq]
      exact List.perm_middle
  | @fails waiting rest row position halt values failure taken answered =>
    refine ⟨fun entry hentry => ?_, fun halt' recorded => ?_, fun none => ?_⟩
    · exact h.waiting entry (taken.mem_iff.mpr (.tail _ hentry))
    · cases failure with
      | some first => exact h.failure halt' recorded
      | none =>
        cases recorded
        exact ⟨row, h.waiting _ (taken.mem_iff.mpr (.head _)), answered⟩
    · cases failure <;> cases none

private theorem Sound.steps (h : Sound answer rows s) (steps : Steps answer s s') :
    Sound answer rows s' := by
  induction steps with
  | refl => exact h
  | tail _ step ih => exact ih.step step

private theorem Ends.sound (h : Ends answer rows s) : Sound answer rows s :=
  (sound_start answer rows).steps h.1

/-- Entries that stand at their positions in a list are that list once they are sorted. -/
private theorem eq_zipIdx_of_perm {α : Type} {entries : List (α × Nat)} {l : List α}
    (sorted : entries.Pairwise (·.2 ≤ ·.2)) (h : entries.Perm l.zipIdx) : entries = l.zipIdx := by
  have positions : (l.zipIdx.map Prod.snd).Pairwise (· ≤ ·) := by
    rw [List.zipIdx_map_snd]
    exact List.pairwise_le_range'
  refine List.Perm.eq_of_pairwise ?_ sorted (List.pairwise_map.mp positions) h
  intro a b ha hb le ge
  have ha := List.mem_zipIdx_iff_getElem?.mp (h.mem_iff.mp ha)
  have hb := List.mem_zipIdx_iff_getElem?.mp hb
  have position : a.2 = b.2 := Nat.le_antisymm le ge
  rw [position, hb] at ha
  exact Prod.ext (Option.some.inj ha).symm position

/-- Without a failure every row has a value, and the values come out in the order of the rows. -/
private theorem Sound.outcome_of_none (h : Sound answer rows s) (finished : s.Finished)
    (none : s.failure = none) :
    ∃ values, rows.map answer = values.map .ok ∧ s.outcome = .ok values := by
  have nothing_waits : s.waiting = [] := by
    rcases finished with empty | failed
    · exact empty
    · rw [none] at failed
      cases failed
  have answers := h.answers none
  rw [nothing_waits, List.map_nil, List.nil_append] at answers
  let sorted := s.values.mergeSort fun a b => a.2 ≤ b.2
  have in_order : sorted.Pairwise (·.2 ≤ ·.2) := by
    refine (List.pairwise_mergeSort ?_ ?_ s.values).imp of_decide_eq_true
    · intro a b c ab bc
      exact decide_eq_true (Nat.le_trans (of_decide_eq_true ab) (of_decide_eq_true bc))
    · intro a b
      simpa using Nat.le_total a.2 b.2
  have same : sorted.map (Prod.map Except.ok id) = (rows.map answer).zipIdx :=
    eq_zipIdx_of_perm (List.pairwise_map.mpr in_order)
      (((List.mergeSort_perm _ _).map _).trans answers)
  refine ⟨sorted.map (·.1), ?_, ?_⟩
  · have firsts := congrArg (List.map Prod.fst) same
    rw [List.zipIdx_map_fst, List.map_map] at firsts
    rw [← firsts, List.map_map]
    rfl
  · rw [outcome, none]

namespace Ends

/-- If every row has a value, the values come out in the order of the rows. -/
theorem outcome_of_ok (h : Ends answer rows s) {values : List (Option Float)}
    (succeed : rows.map answer = values.map .ok) : s.outcome = .ok values := by
  cases recorded : s.failure with
  | none =>
    obtain ⟨values', succeed', outcome⟩ := h.sound.outcome_of_none h.2 recorded
    have same := List.map_injective_iff.mpr (fun _ _ => Except.ok.inj) (succeed'.symm.trans succeed)
    rw [outcome, same]
  | some halt =>
    obtain ⟨row, mem, failed⟩ := h.sound.failure halt recorded
    have value : answer row ∈ values.map .ok := succeed ▸ List.mem_map_of_mem mem
    rw [failed] at value
    simp at value

/-- If some row fails, the failure of some row comes out. -/
theorem outcome_of_error (h : Ends answer rows s) {row : List Float} {halt : Halt}
    (mem : row ∈ rows) (failed : answer row = .error halt) :
    ∃ row' ∈ rows, ∃ halt', answer row' = .error halt' ∧ s.outcome = .error halt' := by
  cases recorded : s.failure with
  | none =>
    obtain ⟨values, succeed, -⟩ := h.sound.outcome_of_none h.2 recorded
    have value : answer row ∈ values.map .ok := succeed ▸ List.mem_map_of_mem mem
    rw [failed] at value
    simp at value
  | some halt' =>
    obtain ⟨row', mem', failed'⟩ := h.sound.failure halt' recorded
    refine ⟨row', mem', halt', failed', ?_⟩
    rw [outcome, recorded]

end Ends

/-! ## One row after the other -/

/-- To take the rows as they come gives the values of all rows or the failure of the first row that
fails. -/
theorem mapM_cases (answer : List Float → Evaluated) (rows : List (List Float)) :
    (∃ values, rows.map answer = values.map .ok ∧ rows.mapM answer = .ok values) ∨
    ∃ before row after halt, rows = before ++ row :: after ∧
      (∀ r ∈ before, ∃ v, answer r = .ok v) ∧ answer row = .error halt ∧
      rows.mapM answer = .error halt := by
  induction rows with
  | nil => exact .inl ⟨[], rfl, rfl⟩
  | cons row rest ih =>
    rw [List.mapM_cons, List.map_cons]
    cases answered : answer row with
    | error halt => exact .inr ⟨[], row, rest, halt, rfl, nofun, answered, rfl⟩
    | ok v =>
      rcases ih with ⟨values, succeed, outcome⟩ |
        ⟨before, row', after, halt, rfl, succeed, failed, outcome⟩
      · refine .inl ⟨v :: values, ?_, ?_⟩
        · rw [List.map_cons, succeed]
        · rw [outcome]
          rfl
      · refine .inr ⟨row :: before, row', after, halt, rfl, ?_, failed, ?_⟩
        · exact List.forall_mem_cons.mpr ⟨⟨v, answered⟩, succeed⟩
        · rw [outcome]
          rfl

/-- Rows that have a value can be taken as they come. -/
private theorem exists_steps_of_ok {taken : List (List Float)}
    (succeed : ∀ r ∈ taken, ∃ v, answer r = .ok v) (position : Nat)
    (waiting : List (List Float × Nat)) (values : List (Option Float × Nat)) :
    ∃ values', Steps answer ⟨taken.zipIdx position ++ waiting, values, none⟩
      ⟨waiting, values', none⟩ := by
  induction taken generalizing position values with
  | nil => exact ⟨values, .refl⟩
  | cons row rest ih =>
    obtain ⟨v, answered⟩ := succeed row (.head _)
    have succeed_rest : ∀ r ∈ rest, ∃ v, answer r = .ok v := fun r mem => succeed r (.tail _ mem)
    obtain ⟨values', steps⟩ := ih succeed_rest (position + 1) ((v, position) :: values)
    exact ⟨values', .head (.value (.refl _) answered) steps⟩

/-- Workers can end with what comes out if the rows are taken as they come. -/
theorem exists_ends_mapM (answer : List Float → Evaluated) (rows : List (List Float)) :
    ∃ s, Ends answer rows s ∧ s.outcome = rows.mapM answer := by
  rcases mapM_cases answer rows with
    ⟨values, succeed, outcome⟩ | ⟨before, row, after, halt, rfl, succeed, failed, outcome⟩
  · obtain ⟨s, steps, finished⟩ := exists_finished answer (start rows)
    have ends : Ends answer rows s := ⟨steps, finished⟩
    exact ⟨s, ends, (ends.outcome_of_ok succeed).trans outcome.symm⟩
  · let waiting := (row :: after).zipIdx before.length
    obtain ⟨values, steps⟩ := exists_steps_of_ok succeed 0 waiting []
    have split : start (before ++ row :: after) = ⟨before.zipIdx ++ waiting, [], none⟩ := by
      rw [start, List.zipIdx_append, Nat.zero_add]
    let s : Scan := ⟨after.zipIdx (before.length + 1), values, some halt⟩
    have failure : Step answer ⟨waiting, values, none⟩ s := .fails (.refl _) failed
    refine ⟨s, ⟨?_, .inr rfl⟩, outcome.symm⟩
    rw [split]
    exact steps.tail failure

end Scan
end ShapeScript
