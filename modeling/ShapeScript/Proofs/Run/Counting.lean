import ShapeScript.Proofs.Number.Whole
import ShapeScript.Proofs.Run.Outcome

/-!
# Counted loops count

A counted loop sets its counter from a count of its own, so what a body does to the counter or to
the bounds has no effect on how often bodies run. `Counting.Passes` and `Counting.Ends` say what an
execution of a counted loop does, body by body; it does that and nothing else
(`Counting.exists_ends`, `Counting.Ends.eq_run`). Between integers it is known beforehand how many
bodies there are if none of them stops the loop (`Counting.counted_run`).
-/

namespace ShapeScript

open Run Binary64

/-- However the code ends, it leaves the slot of the variable as it finds it. -/
def Run.Keeps (var : String) (code : Code) (setting : Setting) : Prop :=
  ∀ s, (slotsAfter (code setting s)).slot? var = s.slot? var

/-- An execution of a counted loop with its bounds, from the slots that are there when both bounds
have been computed. -/
structure Counting where
  loop : CountedLoop
  setting : Setting
  first : Float
  bound : Float
  entry : Slots

namespace Counting

def run (x : Counting) : EStateM.Result Signal Slots (Option Float) :=
  x.loop.run x.first x.bound x.setting x.entry

/-- What the counter is set to for a body; the first body has number zero. -/
def count (x : Counting) : Nat → Float
  | 0 => x.first
  | n + 1 => x.count n + 1

/-- The slots that a body starts with, after those that the body before it has left. -/
def start (x : Counting) (n : Nat) (s : Slots) : Slots := s.write x.loop.counter (x.count n)

/-- The body with this number starts if the loop comes to it with these slots. -/
structure Starts (x : Counting) (n : Nat) (s : Slots) : Prop where
  within : x.count n ≤ x.bound
  room : n < x.setting.ceiling
  in_time : x.setting.deadline.isExpired x.setting.now = false
  writable : ∀ v, s.slot? x.loop.counter ≠ some (.const v)

/-- The loop has started so many bodies and has gone on after each of them, with the value so far
and the slots that the last body has left. -/
inductive Passes (x : Counting) : Nat → Option Float → Slots → Prop where
  | entry : Passes x 0 none x.entry
  | completed {n last s value s'} : Passes x n last s → x.Starts n s →
    x.loop.body x.setting (x.start n s) = .ok value s' → Passes x (n + 1) value s'
  | skipped {n last s place s'} : Passes x n last s → x.Starts n s →
    x.loop.body x.setting (x.start n s) = .error (.continues place) s' → Passes x (n + 1) last s'

/-- The loop comes to the body with this number and starts it. -/
def Started (x : Counting) (n : Nat) : Prop := ∃ last s, x.Passes n last s ∧ x.Starts n s

/-- The loop ends with a result, and it has started so many bodies. -/
inductive Ends (x : Counting) : Nat → EStateM.Result Signal Slots (Option Float) → Prop where
  | past {n last s} : x.Passes n last s → ¬x.count n ≤ x.bound → Ends x n (.ok last s)
  | limit {n last s} : x.Passes n last s → x.count n ≤ x.bound → n = x.setting.ceiling →
    Ends x n (.error (.failsAt (.iterationLimit n) x.loop.span) s)
  | timeout {n last s} : x.Passes n last s → x.count n ≤ x.bound → n < x.setting.ceiling →
    x.setting.deadline.isExpired x.setting.now = true →
    Ends x n (.error (.failsAt .timeout x.loop.span) s)
  | constant {n last s v} : x.Passes n last s → x.count n ≤ x.bound → n < x.setting.ceiling →
    x.setting.deadline.isExpired x.setting.now = false → s.slot? x.loop.counter = some (.const v) →
    Ends x n (.error (.failsAt (.constantReassignment x.loop.counter) x.loop.span) s)
  | left {n last s own place s'} : x.Passes n last s → x.Starts n s →
    x.loop.body x.setting (x.start n s) = .error (.breaks own place) s' →
    Ends x (n + 1) (.ok (own.or last) s')
  | raised {n last s signal s'} : x.Passes n last s → x.Starts n s →
    x.loop.body x.setting (x.start n s) = .error signal s' → signal.lap? = none →
    Ends x (n + 1) (.error signal s')

/-- Every body that the loop goes on after leaves the counter as it finds it. -/
def Untouched (x : Counting) : Prop :=
  ∀ {n last last' s s'}, x.Passes n last s → x.Passes (n + 1) last' s' →
    s'.slot? x.loop.counter = (x.start n s).slot? x.loop.counter

/-- How many integers there are from one to another, both included. -/
def trips (m k : Int) : Nat := (k - m + 1).toNat

/-- The bounds are integers for which adding one is exact. -/
structure Between (x : Counting) (m k : Int) : Prop where
  first_small : m.natAbs < 2 ^ 53
  bound_small : k.natAbs < 2 ^ 53
  first_eq : (x.first == ofInt m) = true
  bound_eq : (x.bound == ofInt k) = true

/-- The loop counts the integers in their order. Only what stops a loop before its end makes it start
fewer bodies, and if no body writes to the counter, it is left with the last integer. -/
structure Enumerates (x : Counting) (m k : Int) : Prop where
  count_eq {i} : i ≤ trips m k → (x.count i == ofInt (m + i)) = true
  lt_trips {i} : x.Started i → i < trips m k
  eq_trips {n last s} : x.Passes n last s → ¬x.count n ≤ x.bound → n = trips m k
  held {last s} : 0 < trips m k → x.Untouched → x.Passes (trips m k) last s →
    ∃ v, s.slot? x.loop.counter = some (.var v) ∧ (v == x.bound) = true

/-- What holds of every execution of a counted loop, whatever its body does. -/
structure Counted (x : Counting) (result : EStateM.Result Signal Slots (Option Float)) : Prop where
  ends : ∃ n, x.Ends n result ∧ ∀ i, x.Started i ↔ i < n
  set i s : (x.start i s).slot? x.loop.counter = some (.var (x.count i))
  empty : ¬x.first ≤ x.bound → result = .ok none x.entry
  nan : x.first.isNaN = true ∨ x.bound.isNaN = true → ¬x.first ≤ x.bound
  enumerates {m k} : x.Between m k → x.Enumerates m k

variable {x : Counting} {n i left : Nat} {last last' : Option Float} {s s' : Slots}
  {result : EStateM.Result Signal Slots (Option Float)}

/-! ## One body -/

/-- Whatever has been done to the counter, a body finds it set to the count. -/
theorem slot?_start (x : Counting) (n : Nat) (s : Slots) :
    (x.start n s).slot? x.loop.counter = some (.var (x.count n)) :=
  (Slots.slot?_write ..).trans (if_pos rfl)

theorem Starts.assign (starts : x.Starts n s) :
    assign x.loop.counter x.loop.span (x.count n) x.setting s = .ok () (x.start n s) := by
  have writable := starts.writable
  rw [assign_apply, start]
  rcases found : s.slot? x.loop.counter with _ | _ | v
  · rfl
  · rfl
  · exact absurd found (writable v)

theorem iterate_of_past (past : ¬x.count n ≤ x.bound) :
    x.loop.iterate x.bound left (x.count n) last x.setting s = .ok last s := by
  cases left with
  | zero | succ =>
    rw [CountedLoop.iterate, if_neg past]
    rfl

theorem iterate_of_limit (within : x.count n ≤ x.bound) (limit : n = x.setting.ceiling) :
    x.loop.iterate x.bound 0 (x.count n) last x.setting s =
      .error (.failsAt (.iterationLimit n) x.loop.span) s := by
  rw [CountedLoop.iterate, if_pos within, limit]
  rfl

theorem iterate_of_timeout (within : x.count n ≤ x.bound)
    (expired : x.setting.deadline.isExpired x.setting.now = true) :
    x.loop.iterate x.bound (left + 1) (x.count n) last x.setting s =
      .error (.failsAt .timeout x.loop.span) s := by
  have refuses := checkDeadline_of_expired x.loop.span s expired
  rw [CountedLoop.iterate, if_pos within, bind_of_error refuses]

theorem iterate_of_constant {v : Float} (within : x.count n ≤ x.bound)
    (in_time : x.setting.deadline.isExpired x.setting.now = false)
    (constant : s.slot? x.loop.counter = some (.const v)) :
    x.loop.iterate x.bound (left + 1) (x.count n) last x.setting s =
      .error (.failsAt (.constantReassignment x.loop.counter) x.loop.span) s := by
  have refuses : assign x.loop.counter x.loop.span (x.count n) x.setting s =
      .error (.failsAt (.constantReassignment x.loop.counter) x.loop.span) s := by
    rw [assign_apply, constant]
  rw [CountedLoop.iterate, if_pos within,
    bind_of_ok (checkDeadline_of_in_time x.loop.span s in_time), bind_of_error refuses]

/-- A body that starts is run, and the loop goes by how it ends. -/
theorem iterate_of_starts (starts : x.Starts n s) :
    x.loop.iterate x.bound (left + 1) (x.count n) last x.setting s =
      (lap x.loop.body >>= fun
        | .completed value => x.loop.iterate x.bound left (x.count (n + 1)) value
        | .skipped => x.loop.iterate x.bound left (x.count (n + 1)) last
        | .left value => pure (value.or last)) x.setting (x.start n s) := by
  rw [CountedLoop.iterate, if_pos starts.within,
    bind_of_ok (checkDeadline_of_in_time x.loop.span s starts.in_time), bind_of_ok starts.assign]
  rfl

/-! ## The whole loop -/

theorem Passes.le_ceiling (passes : x.Passes n last s) : n ≤ x.setting.ceiling := by
  cases passes with
  | entry => exact Nat.zero_le _
  | completed _ starts | skipped _ starts => exact starts.room

/-- The loop goes on from where it has come to. -/
theorem run_of_passes (passes : x.Passes n last s) (room : n + left = x.setting.ceiling) :
    x.run = x.loop.iterate x.bound left (x.count n) last x.setting s := by
  induction passes generalizing left with
  | entry =>
    rw [Nat.zero_add] at room
    rw [room]
    rfl
  | completed _ starts run ih =>
    rw [ih ((Nat.succ_add_eq_add_succ ..).symm.trans room), iterate_of_starts starts,
      bind_of_ok (lap_of_ok run)]
  | skipped _ starts run ih =>
    rw [ih ((Nat.succ_add_eq_add_succ ..).symm.trans room), iterate_of_starts starts,
      bind_of_ok (lap_of_taken run rfl)]

/-- If the ceiling lets another body start, the loop has an iteration left. -/
theorem exists_run_eq (passes : x.Passes n last s) (room : n < x.setting.ceiling) :
    ∃ left, x.run = x.loop.iterate x.bound (left + 1) (x.count n) last x.setting s := by
  obtain ⟨left, eq⟩ := Nat.exists_eq_add_of_lt room
  exact ⟨left, run_of_passes passes eq.symm⟩

/-- The loop does not come to a body in two ways. -/
theorem Passes.unique (passes : x.Passes n last s) (passes' : x.Passes n last' s') :
    last = last' ∧ s = s' := by
  induction passes generalizing last' s' with
  | entry =>
    cases passes'
    exact ⟨rfl, rfl⟩
  | completed _ _ run ih =>
    cases passes' with
    | completed before' _ run' =>
      obtain ⟨rfl, rfl⟩ := ih before'
      cases run.symm.trans run'
      exact ⟨rfl, rfl⟩
    | skipped before' _ run' =>
      obtain ⟨rfl, rfl⟩ := ih before'
      cases run.symm.trans run'
  | skipped _ _ run ih =>
    cases passes' with
    | completed before' _ run' =>
      obtain ⟨rfl, rfl⟩ := ih before'
      cases run.symm.trans run'
    | skipped before' _ run' =>
      obtain ⟨rfl, rfl⟩ := ih before'
      cases run.symm.trans run'
      exact ⟨rfl, rfl⟩

theorem Passes.started (passes : x.Passes n last s) (h : i < n) : x.Started i := by
  induction passes with
  | entry => cases h
  | completed before starts _ ih | skipped before starts _ ih =>
    rcases Nat.lt_succ_iff_lt_or_eq.mp h with earlier | rfl
    · exact ih earlier
    · exact ⟨_, _, before, starts⟩

theorem Ends.started (ends : x.Ends n result) (h : i < n) : x.Started i := by
  cases ends with
  | past passes | limit passes | timeout passes | constant passes => exact passes.started h
  | left before starts | raised before starts =>
    rcases Nat.lt_succ_iff_lt_or_eq.mp h with earlier | rfl
    · exact before.started earlier
    · exact ⟨_, _, before, starts⟩

/-- A loop that has ended does not start another body. -/
theorem Ends.not_started (ends : x.Ends n result) : ¬x.Started n := by
  rintro ⟨last', s', passes', starts'⟩
  cases ends with
  | past _ past => exact past starts'.within
  | limit _ _ limit => exact Nat.ne_of_lt starts'.room limit
  | timeout _ _ _ expired => exact Bool.noConfusion (starts'.in_time.symm.trans expired)
  | constant passes _ _ _ constant =>
    obtain ⟨-, rfl⟩ := passes.unique passes'
    exact starts'.writable _ constant
  | left before _ run =>
    cases passes' with
    | completed before' _ run' | skipped before' _ run' =>
      obtain ⟨rfl, rfl⟩ := before.unique before'
      cases run.symm.trans run'
  | raised before _ run raised =>
    cases passes' with
    | completed before' _ run' =>
      obtain ⟨rfl, rfl⟩ := before.unique before'
      cases run.symm.trans run'
    | skipped before' _ run' =>
      obtain ⟨rfl, rfl⟩ := before.unique before'
      cases run.symm.trans run'
      cases raised

/-- The bodies that have started are those that are counted. -/
theorem Ends.started_iff (ends : x.Ends n result) : x.Started i ↔ i < n := by
  refine ⟨fun started => ?_, ends.started⟩
  rcases Nat.lt_trichotomy i n with lt | rfl | gt
  · exact lt
  · exact absurd started ends.not_started
  · obtain ⟨_, _, passes, -⟩ := started
    exact absurd (passes.started gt) ends.not_started

/-- The loop does nothing else. -/
theorem Ends.eq_run (ends : x.Ends n result) : result = x.run := by
  cases ends with
  | past passes past =>
    rw [run_of_passes passes (Nat.add_sub_of_le passes.le_ceiling), iterate_of_past past]
  | limit passes within limit =>
    rw [run_of_passes passes ((Nat.add_zero _).trans limit), iterate_of_limit within limit]
  | timeout passes within room expired =>
    obtain ⟨left, run_eq⟩ := exists_run_eq passes room
    rw [run_eq, iterate_of_timeout within expired]
  | constant passes within room in_time constant =>
    obtain ⟨left, run_eq⟩ := exists_run_eq passes room
    rw [run_eq, iterate_of_constant within in_time constant]
  | left passes starts run =>
    obtain ⟨left, run_eq⟩ := exists_run_eq passes starts.room
    rw [run_eq, iterate_of_starts starts, bind_of_ok (lap_of_taken run rfl)]
    rfl
  | raised passes starts run raised =>
    obtain ⟨left, run_eq⟩ := exists_run_eq passes starts.room
    rw [run_eq, iterate_of_starts starts, bind_of_error (lap_of_error run raised)]

/-- Wherever the loop has come to, it ends or goes on. -/
theorem Passes.ends_or_passes (passes : x.Passes n last s) :
    (∃ n result, x.Ends n result) ∨ ∃ last s, x.Passes (n + 1) last s := by
  by_cases within : x.count n ≤ x.bound
  case neg => exact .inl ⟨_, _, .past passes within⟩
  rcases Nat.eq_or_lt_of_le passes.le_ceiling with limit | room
  · exact .inl ⟨_, _, .limit passes within limit⟩
  cases in_time : x.setting.deadline.isExpired x.setting.now with
  | true => exact .inl ⟨_, _, .timeout passes within room in_time⟩
  | false =>
    by_cases constant : ∃ v, s.slot? x.loop.counter = some (.const v)
    · obtain ⟨v, constant⟩ := constant
      exact .inl ⟨_, _, .constant passes within room in_time constant⟩
    · have starts : x.Starts n s := ⟨within, room, in_time, fun v held => constant ⟨v, held⟩⟩
      rcases run : x.loop.body x.setting (x.start n s) with ⟨value, s'⟩ | ⟨signal, s'⟩
      · exact .inr ⟨_, _, .completed passes starts run⟩
      · cases signal with
        | breaks => exact .inl ⟨_, _, .left passes starts run⟩
        | continues => exact .inr ⟨_, _, .skipped passes starts run⟩
        | returns | fails | overruns => exact .inl ⟨_, _, .raised passes starts run rfl⟩

/-- The ceiling makes sure that the loop ends. -/
theorem exists_ends (x : Counting) : ∃ n, x.Ends n x.run := by
  have comes : ∀ n, (∃ n result, x.Ends n result) ∨ ∃ last s, x.Passes n last s := by
    intro n
    induction n with
    | zero => exact .inr ⟨_, _, .entry⟩
    | succ n ih =>
      rcases ih with ends | ⟨_, _, passes⟩
      · exact .inl ends
      · exact passes.ends_or_passes
  rcases comes (x.setting.ceiling + 1) with ⟨n, result, ends⟩ | ⟨_, _, passes⟩
  · rw [← ends.eq_run]
    exact ⟨n, ends⟩
  · exact absurd passes.le_ceiling (Nat.not_succ_le_self _)

/-- If the first bound is not within the last one, nothing happens. -/
theorem run_of_empty (empty : ¬x.first ≤ x.bound) : x.run = .ok none x.entry :=
  (Ends.past .entry empty).eq_run.symm

/-- A body that never writes to the counter leaves it alone. -/
theorem untouched_of_keeps (keeps : Keeps x.loop.counter x.loop.body x.setting) : x.Untouched := by
  intro n last last' s s' passes passes'
  cases passes' with
  | completed before _ run | skipped before _ run =>
    obtain ⟨-, rfl⟩ := passes.unique before
    have kept := keeps (x.start n s)
    rwa [run] at kept

/-! ## Between integers -/

namespace Between

variable {m k : Int} (h : x.Between m k)
include h

theorem count_eq (small : m + n ≤ 2 ^ 53) : (x.count n == ofInt (m + n)) = true := by
  have first_small := h.first_small
  induction n with
  | zero => exact (Int.add_zero m).symm ▸ h.first_eq
  | succ n ih =>
    have exact := add_one_of_beq_ofInt (by omega) (by omega) (ih (by omega))
    rwa [Int.add_assoc] at exact

theorem count_le_iff (small : m + n ≤ 2 ^ 53) : x.count n ≤ x.bound ↔ m + n ≤ k := by
  have first_small := h.first_small
  have bound_small := h.bound_small
  exact le_iff_of_beq_ofInt (by omega) (by omega) (h.count_eq small) h.bound_eq

theorem add_trips_le : m + trips m k ≤ 2 ^ 53 := by
  have first_small := h.first_small
  have bound_small := h.bound_small
  rw [trips]
  omega

/-- The body after the last integer does not start. -/
theorem lt_trips (started : x.Started i) : i < trips m k := by
  by_contra beyond
  have last : x.Started (trips m k) := by
    rcases Nat.eq_or_lt_of_le (Nat.le_of_not_lt beyond) with eq | lt
    · rwa [eq]
    · obtain ⟨_, _, passes, -⟩ := started
      exact passes.started lt
  obtain ⟨_, _, -, starts⟩ := last
  have within := (h.count_le_iff h.add_trips_le).mp starts.within
  rw [trips] at within
  omega

theorem eq_trips (passes : x.Passes n last s) (past : ¬x.count n ≤ x.bound) : n = trips m k := by
  have le : n ≤ trips m k := by
    by_contra beyond
    exact Nat.lt_irrefl _ (h.lt_trips (passes.started (Nat.lt_of_not_le beyond)))
  have small := h.add_trips_le
  rw [h.count_le_iff (by omega)] at past
  rw [trips] at le ⊢
  omega

/-- The last body has been started with the last integer. -/
theorem held (some_body : 0 < trips m k) (untouched : x.Untouched)
    (passes : x.Passes (trips m k) last s) :
    ∃ v, s.slot? x.loop.counter = some (.var v) ∧ (v == x.bound) = true := by
  have bound_small := h.bound_small
  obtain ⟨n, eq⟩ := Nat.exists_eq_succ_of_ne_zero (Nat.ne_of_gt some_body)
  have last_eq : m + n = k := by
    rw [trips] at eq
    omega
  rw [eq] at passes
  obtain ⟨_, _, before, -⟩ := passes.started (Nat.lt_succ_self n)
  refine ⟨x.count n, (untouched before passes).trans (x.slot?_start n _), ?_⟩
  exact (beq_iff_of_beq_ofInt (by omega) (by omega) (h.count_eq (by omega)) h.bound_eq).mpr last_eq

theorem enumerates : x.Enumerates m k where
  count_eq le := h.count_eq (by have small := h.add_trips_le; omega)
  lt_trips := h.lt_trips
  eq_trips := h.eq_trips
  held := h.held

end Between

theorem counted_run (x : Counting) : x.Counted x.run where
  ends := by
    obtain ⟨n, ends⟩ := x.exists_ends
    exact ⟨n, ends, fun i => ends.started_iff⟩
  set := x.slot?_start
  empty := run_of_empty
  nan := not_le_of_isNaN
  enumerates h := h.enumerates

end Counting
end ShapeScript
