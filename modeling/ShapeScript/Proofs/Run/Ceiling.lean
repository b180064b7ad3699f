import ShapeScript.Proofs.Run.Outcome
import ShapeScript.Proofs.Walk.Roles
import ShapeScript.Proofs.Compile.Meaning

/-!
# The ceiling of iterations is exact

A loop without its guard goes in rounds: it comes to the start of a body, and the body leads to the
start of the next one or to the end (`Rounds`). Such a loop may go on for ever. All loops of the
language are of this form (`LoopForm`), and the guard that they run under changes nothing until it
stops them: the run of a loop is the loop without its guard, cut off where it would start one body
more than the ceiling allows (`LoopForm.run_cutOff`). A guard that counts in 32 bits does the same
(`Rounds.guardedBy_apply`).
-/

namespace ShapeScript

open Run

/-- Where a loop stands between two bodies. -/
inductive Stage (κ : Type) where
  | ended (value : Option Float)
  /-- A body is about to start, with what the loop carries from one body to the next. -/
  | ready (carried : κ)

namespace Stage

/-- The end of a loop, if it has come to an end. -/
def outcome? {κ : Type} : EStateM.Result Signal Slots (Stage κ) →
    Option (EStateM.Result Signal Slots (Option Float))
  | .ok (.ended value) slots => some (.ok value slots)
  | .ok (.ready _) _ => none
  | .error signal slots => some (.error signal slots)

end Stage

/-- A loop without its guard. -/
structure Rounds (κ : Type) where
  /-- From the entry of the loop to the start of the first body. -/
  enter : Run (Stage κ)
  /-- A body and what comes after it, up to the start of the next one. -/
  round : κ → Run (Stage κ)
  span : Span

namespace Rounds

variable {κ : Type}

/-- After so many bodies, the loop without its guard is about to start another one. -/
inductive ComesTo (r : Rounds κ) (setting : Setting) (slots : Slots) : Nat → κ → Slots → Prop where
  | enter {k slots'} : r.enter setting slots = .ok (.ready k) slots' →
    ComesTo r setting slots 0 k slots'
  | round {n k k' s s'} : ComesTo r setting slots n k s → r.round k setting s = .ok (.ready k') s' →
    ComesTo r setting slots (n + 1) k' s'

/-- The loop without its guard ends, and it has started so many bodies. -/
inductive EndsAfter (r : Rounds κ) (setting : Setting) (slots : Slots) :
    Nat → EStateM.Result Signal Slots (Option Float) → Prop where
  | enter {result} : Stage.outcome? (r.enter setting slots) = some result →
    EndsAfter r setting slots 0 result
  | round {n k s result} : ComesTo r setting slots n k s →
    Stage.outcome? (r.round k setting s) = some result → EndsAfter r setting slots (n + 1) result

/-- The loop under a guard that lets so many bodies start. -/
def guardedFrom (r : Rounds κ) : (left : Nat) → Stage κ → Code
  | _, .ended value => pure value
  | 0, .ready _ => exhausted r.span
  | left + 1, .ready k => do
    checkDeadline r.span
    r.guardedFrom left (← r.round k)

/-- The loop under its guard. -/
def guarded (r : Rounds κ) : Code := do
  let stage ← r.enter
  r.guardedFrom (← readThe Setting).ceiling stage

/-- The result is that of the loop without its guard if it ends after at most so many bodies. If it
would start another one, the result is the failure, with the slots as they are at that moment. One
of the two is the case. -/
structure CutOff (r : Rounds κ) (setting : Setting) (slots : Slots) (bodies : Nat)
    (fault : RunFault) (result : EStateM.Result Signal Slots (Option Float)) : Prop where
  ended {n result'} : n ≤ bodies → r.EndsAfter setting slots n result' → result = result'
  stopped {k slots'} : r.ComesTo setting slots bodies k slots' →
    result = .error (.failsAt fault r.span) slots'
  ends_or_stops : (∃ n ≤ bodies, ∃ result', r.EndsAfter setting slots n result') ∨
    ∃ k slots', r.ComesTo setting slots bodies k slots'

variable {r : Rounds κ} {setting : Setting} {slots slots' : Slots} {k : κ} {n left : Nat}
  {result : EStateM.Result Signal Slots (Option Float)}

/-- A loop that has not ended so far is about to start the next body. -/
theorem ends_or_comesTo (r : Rounds κ) (setting : Setting) (slots : Slots) (n : Nat) :
    (∃ m ≤ n, ∃ result, r.EndsAfter setting slots m result) ∨
      ∃ k slots', r.ComesTo setting slots n k slots' := by
  induction n with
  | zero =>
    rcases h : r.enter setting slots with ⟨_ | k, s⟩ | ⟨e, s⟩
    · exact .inl ⟨0, Nat.le_refl 0, _, .enter (by rw [h]; rfl)⟩
    · exact .inr ⟨k, s, .enter h⟩
    · exact .inl ⟨0, Nat.le_refl 0, _, .enter (by rw [h]; rfl)⟩
  | succ n ih =>
    rcases ih with ⟨m, le, result, ends⟩ | ⟨k, s, comes⟩
    · exact .inl ⟨m, Nat.le_succ_of_le le, result, ends⟩
    · rcases h : r.round k setting s with ⟨_ | k', s'⟩ | ⟨e, s'⟩
      · exact .inl ⟨n + 1, Nat.le_refl _, _, .round comes (by rw [h]; rfl)⟩
      · exact .inr ⟨k', s', .round comes h⟩
      · exact .inl ⟨n + 1, Nat.le_refl _, _, .round comes (by rw [h]; rfl)⟩

/-! ## The loop under its guard -/

theorem guarded_apply (r : Rounds κ) (setting : Setting) (slots : Slots) :
    r.guarded setting slots = (r.enter >>= r.guardedFrom setting.ceiling) setting slots := rfl

theorem bind_guardedFrom_of_outcome? {m : Run (Stage κ)}
    (h : Stage.outcome? (m setting slots) = some result) :
    (m >>= r.guardedFrom left) setting slots = result := by
  rcases run : m setting slots with ⟨value | k, s⟩ | ⟨e, s⟩ <;> rw [run] at h <;> cases h
  · rw [bind_of_ok run]
    cases left <;> rfl
  · rw [bind_of_error run]

/-- In time, a guard that lets another body start does just that. -/
theorem guardedFrom_succ (in_time : setting.deadline.isExpired setting.now = false) :
    r.guardedFrom (left + 1) (.ready k) setting slots =
      (r.round k >>= r.guardedFrom left) setting slots := by
  rw [guardedFrom, bind_of_ok (checkDeadline_of_in_time r.span slots in_time)]

theorem guarded_of_comesTo (in_time : setting.deadline.isExpired setting.now = false)
    (comes : r.ComesTo setting slots n k slots') (left : Nat) (le : n + left = setting.ceiling) :
    r.guarded setting slots = r.guardedFrom left (.ready k) setting slots' := by
  induction comes generalizing left with
  | enter h => rw [guarded_apply, bind_of_ok h, ← le, Nat.zero_add]
  | round _ h ih => rw [ih (left + 1) (by omega), guardedFrom_succ in_time, bind_of_ok h]

theorem guarded_of_endsAfter (in_time : setting.deadline.isExpired setting.now = false)
    (ends : r.EndsAfter setting slots n result) (le : n ≤ setting.ceiling) :
    r.guarded setting slots = result := by
  cases ends with
  | enter h => rw [guarded_apply, bind_guardedFrom_of_outcome? h]
  | @round n k s _ comes h =>
    rw [guarded_of_comesTo in_time comes (setting.ceiling - n) (by omega)]
    obtain ⟨left, heq⟩ := Nat.exists_eq_succ_of_ne_zero (n := setting.ceiling - n) (by omega)
    rw [heq, guardedFrom_succ in_time, bind_guardedFrom_of_outcome? h]

theorem cutOff_ceiling (in_time : setting.deadline.isExpired setting.now = false) :
    r.CutOff setting slots setting.ceiling (.iterationLimit setting.ceiling)
      (r.guarded setting slots) where
  ended le ends := guarded_of_endsAfter in_time ends le
  stopped comes := guarded_of_comesTo in_time comes 0 (Nat.add_zero _)
  ends_or_stops := r.ends_or_comesTo setting slots setting.ceiling

/-- Out of time, no body starts at all; the ceiling is looked at before the deadline. -/
theorem cutOff_deadline (expired : setting.deadline.isExpired setting.now = true) :
    r.CutOff setting slots 0 (if setting.ceiling = 0 then .iterationLimit 0 else .timeout)
      (r.guarded setting slots) where
  ended le ends := by
    cases ends with
    | enter h => rw [guarded_apply, bind_guardedFrom_of_outcome? h]
    | round => cases le
  stopped {k slots'} comes := by
    cases comes with
    | enter h =>
      rw [guarded_apply, bind_of_ok h]
      cases ceiling : setting.ceiling with
      | zero =>
        change EStateM.Result.error (Signal.failsAt (.iterationLimit setting.ceiling) r.span) slots' = _
        rw [ceiling, if_pos rfl]
      | succ left =>
        have refuses := checkDeadline_of_expired r.span slots' expired
        rw [guardedFrom, bind_of_error refuses, if_neg (Nat.succ_ne_zero left)]
  ends_or_stops := r.ends_or_comesTo setting slots 0

end Rounds

/-! ## A guard that counts in 32 bits -/

/-- How many bodies have started, and how many may. -/
structure Guard where
  iterations : UInt32
  limit : UInt32

namespace Guard

def left (g : Guard) : Nat := g.limit.toNat - g.iterations.toNat

/-- The guard has counted one body more, and the count has not overflowed. -/
structure Next (g next : Guard) : Prop where
  limit : next.limit = g.limit
  iterations : next.iterations.toNat = g.iterations.toNat + 1
  within : next.iterations ≤ next.limit

theorem next_of_lt {g : Guard} (h : g.iterations < g.limit) :
    g.Next { g with iterations := g.iterations + 1 } := by
  have small := g.limit.toNat_lt
  rw [UInt32.lt_iff_toNat_lt] at h
  have iterations : (g.iterations + 1).toNat = g.iterations.toNat + 1 := by
    rw [UInt32.toNat_add, UInt32.toNat_one]
    omega
  refine ⟨rfl, iterations, UInt32.le_iff_toNat_le.mpr ?_⟩
  change (g.iterations + 1).toNat ≤ g.limit.toNat
  omega

theorem Next.left_add_one {g next : Guard} (h : g.Next next) : next.left + 1 = g.left := by
  have within := UInt32.le_iff_toNat_le.mp h.within
  have iterations := h.iterations
  rw [left, left, h.limit] at *
  omega

/-- Asked before every body: counts it, unless the limit is reached or time is up. -/
def tick (g : Guard) (span : Span) : Run { next : Guard // g.Next next } :=
  if h : g.iterations < g.limit then do
    checkDeadline span
    return ⟨_, next_of_lt h⟩
  else failAt (.iterationLimit g.limit.toNat) span

end Guard

namespace Rounds

variable {κ : Type}

/-- The loop under a guard that counts its bodies. -/
def guardedBy (r : Rounds κ) (g : Guard) : Stage κ → Code
  | .ended value => pure value
  | .ready k => do
    let ⟨next, _⟩ ← g.tick r.span
    r.guardedBy next (← r.round k)
termination_by g.left
decreasing_by
  have := Guard.Next.left_add_one ‹_›
  omega

/-- Counting up to the ceiling is counting down from it. -/
theorem guardedBy_apply (r : Rounds κ) (setting : Setting) {g : Guard}
    (limit : g.limit.toNat = setting.ceiling) (stage : Stage κ) (slots : Slots) :
    r.guardedBy g stage setting slots = r.guardedFrom g.left stage setting slots := by
  induction left : g.left generalizing g stage slots with
  | zero =>
    cases stage with
    | ended value => rw [guardedBy, guardedFrom]
    | ready k =>
      have reached : ¬g.iterations < g.limit := by
        rw [UInt32.lt_iff_toNat_lt]
        rw [Guard.left] at left
        omega
      have refuses : g.tick r.span setting slots =
          .error (.failsAt (.iterationLimit setting.ceiling) r.span) slots := by
        rw [Guard.tick, dif_neg reached, limit]
        rfl
      rw [guardedBy, bind_of_error refuses]
      rfl
  | succ left ih =>
    cases stage with
    | ended value => rw [guardedBy, guardedFrom]
    | ready k =>
      have within : g.iterations < g.limit := by
        rw [UInt32.lt_iff_toNat_lt]
        rw [Guard.left] at left
        omega
      have next := Guard.next_of_lt within
      have next_left := next.left_add_one
      rw [guardedBy, guardedFrom, Guard.tick, dif_pos within, bind_assoc]
      cases expired : setting.deadline.isExpired setting.now with
      | true =>
        have refuses := checkDeadline_of_expired r.span slots expired
        rw [bind_of_error refuses, bind_of_error refuses]
      | false =>
        have passes := checkDeadline_of_in_time r.span slots expired
        rw [bind_of_ok passes, bind_of_ok passes, pure_bind]
        change (r.round k >>= r.guardedBy { g with iterations := g.iterations + 1 }) setting slots = _
        rcases run : r.round k setting slots with ⟨stage, s⟩ | ⟨e, s⟩
        · rw [bind_of_ok run, bind_of_ok run]
          exact ih (next.limit ▸ limit) stage s (by omega)
        · rw [bind_of_error run, bind_of_error run]

theorem guarded_eq_guardedBy {r : Rounds κ} {setting : Setting} {limit : UInt32}
    (ceiling : limit.toNat = setting.ceiling) (slots : Slots) :
    r.guarded setting slots = (r.enter >>= r.guardedBy ⟨0, limit⟩) setting slots := by
  have all : Guard.left ⟨0, limit⟩ = setting.ceiling := ceiling
  rw [guarded_apply]
  rcases run : r.enter setting slots with ⟨stage, s⟩ | ⟨e, s⟩
  · rw [bind_of_ok run, bind_of_ok run, r.guardedBy_apply setting ceiling stage s, all]
  · rw [bind_of_error run, bind_of_error run]

end Rounds

/-! ## The loops of the language -/

namespace Loop

/-- Tests the condition: either the next body is about to start or the loop is over. -/
def toBody (l : Loop) (last : Option Float) : Run (Stage (Option Float)) := do
  if ← l.test then return .ready last else return .ended last

/-- First the initial part, if there is one; then condition, body, update, and so on. -/
def rounds (l : Loop) (init : Option Code) : Rounds (Option Float) where
  enter := do
    discard (init.getD (pure none))
    l.toBody none
  round last := do
    match ← lap l.body with
    | .completed value => l.advance; l.toBody value
    | .skipped => l.advance; l.toBody last
    | .left value => return .ended (value.or last)
  span := l.span

/-- Body, condition, and so on. -/
def roundsBodyFirst (l : Loop) : Rounds (Option Float) where
  enter := return .ready none
  round last := do
    match ← lap l.body with
    | .completed value => l.toBody value
    | .skipped => l.toBody last
    | .left value => return .ended (value.or last)
  span := l.span

theorem iterate_eq_guardedFrom (l : Loop) (init : Option Code) (left : Nat) (last : Option Float) :
    l.iterate left last = (l.toBody last >>= (l.rounds init).guardedFrom left) := by
  induction left generalizing last with
  | zero =>
    rw [iterate, toBody, bind_assoc]
    apply bind_congr
    intro goes
    cases goes <;> rfl
  | succ left ih =>
    rw [iterate, toBody, bind_assoc]
    apply bind_congr
    intro goes
    cases goes with
    | false => rfl
    | true =>
      simp only [if_true, pure_bind, Rounds.guardedFrom, rounds, bind_assoc]
      apply bind_congr
      intro _
      apply bind_congr
      intro ended
      cases ended with
      | completed value => simp only [ih, bind_assoc, rounds]
      | skipped => simp only [ih, bind_assoc, rounds]
      | left value => rw [pure_bind, Rounds.guardedFrom]

theorem iterateBodyFirst_eq_guardedFrom (l : Loop) (left : Nat) (last : Option Float) :
    l.iterateBodyFirst left last = l.roundsBodyFirst.guardedFrom left (.ready last) := by
  induction left generalizing last with
  | zero => rfl
  | succ left ih =>
    -- the test that ends a round decides whether another body starts
    have test_last : ∀ last, (do if ← l.test then l.iterateBodyFirst left last else return last) =
        l.toBody last >>= l.roundsBodyFirst.guardedFrom left := by
      intro last
      rw [toBody, bind_assoc]
      apply bind_congr
      intro goes
      cases goes with
      | true => exact ih last
      | false => simp only [Bool.false_eq_true, if_false, pure_bind, Rounds.guardedFrom]
    simp only [iterateBodyFirst, Rounds.guardedFrom, roundsBodyFirst, bind_assoc]
    apply bind_congr
    intro _
    apply bind_congr
    intro ended
    cases ended with
    | completed value => exact test_last value
    | skipped => exact test_last last
    | left value => rw [pure_bind, Rounds.guardedFrom]

end Loop

namespace CountedLoop

/-- What a counted loop carries from one body to the next. -/
structure Count where
  count : Float
  bound : Float
  last : Option Float

/-- Compares with the last bound: either the next body is about to start or the loop is over. -/
def Count.toBody (c : Count) : Stage Count :=
  if c.count ≤ c.bound then .ready c else .ended c.last

/-- Both bounds, then comparison, assignment of the counter, body, and so on. -/
def rounds (l : CountedLoop) (first : Code) (firstSpan : Span) (last : Code) (lastSpan : Span) :
    Rounds Count where
  enter := do
    let low ← required first firstSpan
    let high ← required last lastSpan
    return Count.toBody ⟨low, high, none⟩
  round c := do
    assign l.counter l.span c.count
    match ← lap l.body with
    | .completed value => return Count.toBody ⟨c.count + 1, c.bound, value⟩
    | .skipped => return Count.toBody ⟨c.count + 1, c.bound, c.last⟩
    | .left value => return .ended (value.or c.last)
  span := l.span

theorem iterate_eq_guardedFrom (l : CountedLoop) (first : Code) (firstSpan : Span) (last : Code)
    (lastSpan : Span) (left : Nat) (c : Count) :
    l.iterate c.bound left c.count c.last =
      (l.rounds first firstSpan last lastSpan).guardedFrom left c.toBody := by
  induction left generalizing c with
  | zero =>
    rw [iterate, Count.toBody]
    split <;> rfl
  | succ left ih =>
    rw [iterate, Count.toBody]
    split
    next =>
      simp only [Rounds.guardedFrom, rounds, bind_assoc]
      apply bind_congr
      intro _
      apply bind_congr
      intro _
      apply bind_congr
      intro ended
      cases ended with
      | completed value => exact ih ⟨c.count + 1, c.bound, value⟩
      | skipped => exact ih ⟨c.count + 1, c.bound, c.last⟩
      | left value => rw [pure_bind, Rounds.guardedFrom]
    next => rw [Rounds.guardedFrom]

end CountedLoop

/-- An execution of a loop from its entry on, with all its parts. -/
inductive LoopForm where
  /-- The condition comes first, after an initial part. -/
  | condFirst (loop : Loop) (init : Option Code)
  | bodyFirst (loop : Loop)
  /-- The bounds are computed on entry. -/
  | counted (loop : CountedLoop) (first : Code) (firstSpan : Span) (last : Code) (lastSpan : Span)

namespace LoopForm

def Carried : LoopForm → Type
  | condFirst .. | bodyFirst _ => Option Float
  | counted .. => CountedLoop.Count

/-- The loop without its guard. -/
def rounds : (f : LoopForm) → Rounds f.Carried
  | condFirst loop init => loop.rounds init
  | bodyFirst loop => loop.roundsBodyFirst
  | counted loop first firstSpan last lastSpan => loop.rounds first firstSpan last lastSpan

def run : LoopForm → Code
  | condFirst loop init => do
    discard (init.getD (pure none))
    loop.run
  | bodyFirst loop => loop.runBodyFirst
  | counted loop first firstSpan last lastSpan => do
    let low ← required first firstSpan
    let high ← required last lastSpan
    loop.run low high

theorem run_eq_guarded (f : LoopForm) : f.run = f.rounds.guarded := by
  funext setting
  cases f with
  | condFirst loop init =>
    change (discard (init.getD (pure none)) >>= fun _ => loop.iterate setting.ceiling none) setting =
      ((loop.rounds init).enter >>= (loop.rounds init).guardedFrom setting.ceiling) setting
    simp only [loop.iterate_eq_guardedFrom init, Loop.rounds, bind_assoc]
  | bodyFirst loop =>
    change loop.iterateBodyFirst setting.ceiling none setting = _
    rw [loop.iterateBodyFirst_eq_guardedFrom]
    rfl
  | counted loop first firstSpan last lastSpan =>
    have iterate := fun low high => loop.iterate_eq_guardedFrom first firstSpan last lastSpan
      setting.ceiling ⟨low, high, none⟩
    change (do
      let low ← required first firstSpan
      let high ← required last lastSpan
      loop.iterate high setting.ceiling low none : Code) setting =
        ((loop.rounds first firstSpan last lastSpan).enter >>=
          (loop.rounds first firstSpan last lastSpan).guardedFrom setting.ceiling) setting
    simp only [iterate, CountedLoop.rounds, bind_assoc, pure_bind]

/-- The ceiling is exact. A loop runs as it does without its guard until it would start one body
more than the ceiling allows, and then fails with the slots as they are before that body, or, if
the loop is counted, before the counter is set for it. If time is up, the first body does not
start. A guard that counts up from zero in 32 bits does the same, and its count is always the
number of bodies that have started. -/
theorem run_cutOff (f : LoopForm) (setting : Setting) (slots : Slots) :
    (setting.deadline.isExpired setting.now = false →
      f.rounds.CutOff setting slots setting.ceiling (.iterationLimit setting.ceiling)
        (f.run setting slots)) ∧
    (setting.deadline.isExpired setting.now = true →
      f.rounds.CutOff setting slots 0 (if setting.ceiling = 0 then .iterationLimit 0 else .timeout)
        (f.run setting slots)) ∧
    ∀ limit : UInt32, setting.ceiling = limit.toNat →
      f.run setting slots = (f.rounds.enter >>= f.rounds.guardedBy ⟨0, limit⟩) setting slots ∧
      (setting.deadline.isExpired setting.now = false →
        ∀ n k slots', n ≤ setting.ceiling → f.rounds.ComesTo setting slots n k slots' →
          ∃ count : UInt32, count.toNat = n ∧
            f.run setting slots = f.rounds.guardedBy ⟨count, limit⟩ (.ready k) setting slots') := by
  rw [run_eq_guarded]
  refine ⟨Rounds.cutOff_ceiling, Rounds.cutOff_deadline, fun limit ceiling => ⟨?_, ?_⟩⟩
  · exact Rounds.guarded_eq_guardedBy ceiling.symm slots
  · intro in_time n k slots' le comes
    have small := limit.toNat_lt_size
    have count : (UInt32.ofNat n).toNat = n := UInt32.toNat_ofNat_of_lt' (by omega)
    have left : n + Guard.left ⟨.ofNat n, limit⟩ = setting.ceiling := by
      rw [Guard.left, count, ceiling]
      exact Nat.add_sub_of_le (ceiling ▸ le)
    have counted := f.rounds.guardedBy_apply setting (g := ⟨.ofNat n, limit⟩) ceiling.symm (.ready k)
      slots'
    exact ⟨.ofNat n, count, (Rounds.guarded_of_comesTo in_time comes _ left).trans counted.symm⟩

/-- Each lap of the outer loop is a loop that starts one body, which is as many as a loop may. The
outer loop may not start a second one. -/
theorem run_cutOff_of_nested_loops :
    let inner : LoopForm := .bodyFirst ⟨some (pure (some 0), ⟨2, 3⟩), none, pure (some 7), ⟨1, 4⟩⟩
    let outer : LoopForm := .condFirst ⟨none, none, inner.run, ⟨0, 5⟩⟩ none
    let setting : Setting := ⟨.empty 0, 1, .never, 0⟩
    setting.deadline.isExpired setting.now = false ∧
      outer.rounds.ComesTo setting .empty 1 (some 7) .empty ∧
      outer.run setting .empty = .error (.failsAt (.iterationLimit 1) ⟨0, 5⟩) .empty := by
  intro inner outer setting
  have in_time : setting.deadline.isExpired setting.now = false := rfl
  have comes : outer.rounds.ComesTo setting .empty 1 (some 7) .empty := .round (.enter rfl) rfl
  exact ⟨in_time, comes, ((run_cutOff outer setting .empty).1 in_time).stopped comes⟩

end LoopForm

/-- The code of a loop is that of a loop of one of the forms, with the place of the node. -/
theorem Tree.exists_loopForm_of_compile {registry : Registry} {tree : Tree} {scope : Scope}
    {t t' : Tally} {c : Compiled} (h : tree.compile registry scope t = .ok (c, t'))
    (loop : tree.isLoop = true) : ∃ f : LoopForm, f.rounds.span = tree.span ∧ c.code = f.run := by
  rw [tree.code_of_compile (.refl registry) scope _ _ _ h]
  cases tree with
  | whileLoop span cond body =>
    rw [Tree.walk]
    exact ⟨.condFirst ⟨_, _, _, span⟩ none, rfl, rfl⟩
  | doWhile span body cond =>
    rw [Tree.walk]
    exact ⟨.bodyFirst ⟨_, _, _, span⟩, rfl, rfl⟩
  | forLoop span init cond update body =>
    rw [Tree.walk]
    exact ⟨.condFirst ⟨_, _, _, span⟩ _, rfl, rfl⟩
  | countedLoop span counter first last body =>
    rw [Tree.walk]
    exact ⟨.counted ⟨counter, _, span⟩ _ _ _ _, rfl, rfl⟩
  | _ => cases loop

end ShapeScript
