import Mathlib.Data.List.Forall2
import ShapeScript.Run.Arithmetic
import ShapeScript.Run.Exit
import ShapeScript.Proofs.Run.Outcome

/-!
# Two runs in step

A *pairing* fixes two settings, a relation between the slots of two runs, and faults that cut the
left run short (`Pairing`). Two runs are *in step* if from related slots they end with the same
value or with related signals, and in related slots again, unless the left run is cut short
(`Pairing.InStep`). Every way of putting runs together keeps runs in step; a statement about two
evaluations, or about one that is paired with itself, is then one about the slot operations and the
signals alone.

The limits of the right run may be looser. It is never cut short where the left run is not, as each
loop has at least as many iterations left in it (`Pairing.IterationsFit`).
-/

namespace ShapeScript

open Run

/-- How a variable is written. -/
inductive Write where
  /-- The variable may be new. -/
  | bind
  /-- The variable has a value, which is replaced. -/
  | update
deriving DecidableEq

/-- What has to be in the slot before the variable is written. -/
def Write.Allows : Write → Option Slot → Prop
  | bind, slot => ∀ v, slot ≠ some (.const v)
  | update, slot => ∃ v, slot = some (.var v)

/-- Two runs that fail at the same place end with related signals. -/
abbrev FailAlike (signals : Signal → Signal → Prop) (fault fault' : RunFault) (span : Span) : Prop :=
  signals (.failsAt fault span) (.failsAt fault' span)

/-- Two runs that fail alike end with related signals. -/
abbrev FailsAlike (signals : Signal → Signal → Prop) (fault : RunFault) (span : Span) : Prop :=
  FailAlike signals fault fault span

/-- Two runs of a loop have as many iterations left, or the right one has more and the left one is
cut short when it has none. -/
def Pairing.IterationsFit (cut : RunFault → Prop) (left right : Nat) : Prop :=
  left = right ∨ left ≤ right ∧ ∀ limit, cut (.iterationLimit limit)

/-- Two settings, and what holds between the slots of a run in the one and a run in the other. -/
structure Pairing where
  left : Setting
  right : Setting
  slots : Slots → Slots → Prop
  /-- Faults of the left run after which nothing more is asked of either run. -/
  cut : RunFault → Prop
  function? : ∀ id, left.registry.function? id = right.registry.function? id
  ceiling : Pairing.IterationsFit cut left.ceiling right.ceiling
  expired : left.deadline.isExpired left.now = right.deadline.isExpired right.now ∨
    right.deadline.isExpired right.now = false ∧ cut .timeout

namespace Pairing

namespace IterationsFit

variable {cut : RunFault → Prop} {left right : Nat}

theorem pred (h : IterationsFit cut (left + 1) (right + 1)) : IterationsFit cut left right :=
  h.imp Nat.succ.inj fun ⟨le, cut⟩ => ⟨Nat.le_of_succ_le_succ le, cut⟩

theorem cut_of_zero (h : IterationsFit cut 0 (right + 1)) (limit : Nat) :
    cut (.iterationLimit limit) := by
  rcases h with eq | ⟨-, cut⟩
  · cases eq
  · exact cut limit

/-- The right run does not run out of iterations first. -/
theorem not_succ_zero : ¬IterationsFit cut (left + 1) 0 := by
  rintro (eq | ⟨le, -⟩)
  · cases eq
  · exact Nat.not_succ_le_zero left le

end IterationsFit

/-- Two runs in the same setting. -/
def within (setting : Setting) (slots : Slots → Slots → Prop) : Pairing where
  left := setting
  right := setting
  slots := slots
  cut _ := False
  function? _ := rfl
  ceiling := .inl rfl
  expired := .inl rfl

/-- Two ends fit. -/
inductive Matches (P : Pairing) (signals : Signal → Signal → Prop) {α : Type} :
    EStateM.Result Signal Slots α → EStateM.Result Signal Slots α → Prop where
  | ok {a s s'} : P.slots s s' → Matches P signals (.ok a s) (.ok a s')
  | error {e e' s s'} : signals e e' → P.slots s s' →
    Matches P signals (.error e s) (.error e' s')
  | cut {fault span s r'} : P.cut fault → Matches P signals (.error (.failsAt fault span) s) r'

/-- From related slots, the ends of the two runs fit. -/
def InStep (P : Pairing) (signals : Signal → Signal → Prop) {α : Type} (m m' : Run α) : Prop :=
  ∀ s s', P.slots s s' → P.Matches signals (m P.left s) (m' P.right s')

/-- The slots agree on a variable and go on being related when it is written. The two runs may call
it by different names. -/
structure Carries (P : Pairing) (how : Write) (var var' : String) : Prop where
  agree {s s'} : P.slots s s' → s.slot? var = s'.slot? var'
  write {s s' v} : P.slots s s' → how.Allows (s.slot? var) →
    P.slots (s.write var v) (s'.write var' v)

theorem Matches.mono {P : Pairing} {signals signals' : Signal → Signal → Prop} {α : Type}
    {r r' : EStateM.Result Signal Slots α} (h : P.Matches signals r r')
    (weaker : ∀ {e e'}, signals e e' → signals' e e') : P.Matches signals' r r' := by
  cases h with
  | ok hs => exact .ok hs
  | error he hs => exact .error (weaker he) hs
  | cut hc => exact .cut hc

namespace InStep

variable {P : Pairing} {signals signals' : Signal → Signal → Prop} {α β : Type} {m m' : Run α}

theorem mono (h : P.InStep signals m m') (weaker : ∀ {e e'}, signals e e' → signals' e e') :
    P.InStep signals' m m' :=
  fun s s' hs => (h s s' hs).mono weaker

protected theorem pure (a : α) : P.InStep signals (pure a) (pure a) := fun _ _ hs => .ok hs

protected theorem throw {e e' : Signal} (h : signals e e') :
    P.InStep signals (throw e : Run α) (throw e') := fun _ _ hs => .error h hs

protected theorem failAt {fault : RunFault} {span : Span}
    (h : FailsAlike signals fault span) :
    P.InStep signals (failAt fault span : Run α) (failAt fault span) := .throw h

/-- Both runs look at their settings. -/
theorem readSetting {f f' : Setting → Run α} (h : P.InStep signals (f P.left) (f' P.right)) :
    P.InStep signals (readThe Setting >>= f) (readThe Setting >>= f') := h

protected theorem bind {f f' : α → Run β} (hm : P.InStep signals m m')
    (hf : ∀ a, P.InStep signals (f a) (f' a)) : P.InStep signals (m >>= f) (m' >>= f') := by
  intro s s' hs
  have ends := hm s s' hs
  generalize left : m P.left s = r, right : m' P.right s' = r' at ends
  cases ends with
  | ok hs =>
    rw [bind_of_ok left, bind_of_ok right]
    exact hf _ _ _ hs
  | error he hs =>
    rw [bind_of_error left, bind_of_error right]
    exact .error he hs
  | cut hc =>
    rw [bind_of_error left]
    exact .cut hc

/-- How two runs in step can end if nothing cuts them short. -/
theorem ends (h : P.InStep signals m m') (uncut : ∀ fault, ¬P.cut fault) {s s' : Slots}
    (hs : P.slots s s') :
    (∃ a t t', m P.left s = .ok a t ∧ m' P.right s' = .ok a t' ∧ P.slots t t') ∨
      ∃ e e' t t', m P.left s = .error e t ∧ m' P.right s' = .error e' t' ∧ signals e e' ∧
        P.slots t t' := by
  have ends := h s s' hs
  generalize m P.left s = r, m' P.right s' = r' at ends
  cases ends with
  | ok ht => exact .inl ⟨_, _, _, rfl, rfl, ht⟩
  | error he ht => exact .inr ⟨_, _, _, _, rfl, rfl, he, ht⟩
  | cut hc => exact absurd hc (uncut _)

protected theorem map {f : α → β} (h : P.InStep signals m m') :
    P.InStep signals (f <$> m) (f <$> m') := by
  rw [map_eq_pure_bind, map_eq_pure_bind]
  exact .bind h fun a => .pure (f a)

protected theorem discard {m m' : Code} (h : P.InStep signals m m') :
    P.InStep signals (discard m) (discard m') := h.map

protected theorem required {code code' : Code} {span : Span} (h : P.InStep signals code code')
    (noValue : FailsAlike signals .noValue span) :
    P.InStep signals (required code span) (required code' span) := by
  refine .bind h fun value => ?_
  cases value with
  | some v => exact .pure v
  | none => exact .failAt noValue

protected theorem condition {code code' : Code} {span : Span} (h : P.InStep signals code code')
    (noValue : FailsAlike signals .noValue span) :
    P.InStep signals (condition code span) (condition code' span) :=
  .bind (.required h noValue) fun v => .pure (truth v)

/-! ## Slots -/

section
variable {var var' : String} {span : Span}

protected theorem read (agree : ∀ {s s'}, P.slots s s' → s.slot? var = s'.slot? var')
    (unset : FailAlike signals (.uninitializedVariable var) (.uninitializedVariable var') span) :
    P.InStep signals (read var span) (read var' span) := by
  intro s s' hs
  rw [read_apply, read_apply, ← agree hs]
  cases s.slot? var with
  | none => exact .error unset hs
  | some slot => exact .ok hs

protected theorem copyIn (agree : ∀ {s s'}, P.slots s s' → s.slot? var = s'.slot? var')
    (constant : FailAlike signals (.constantReassignment var) (.constantReassignment var') span) :
    P.InStep signals (copyIn var span) (copyIn var' span) := by
  intro s s' hs
  rw [copyIn_apply, copyIn_apply, ← agree hs]
  rcases s.slot? var with _ | v | v
  · exact .ok hs
  · exact .ok hs
  · exact .error constant hs

protected theorem assign (carries : P.Carries .bind var var')
    (constant : FailAlike signals (.constantReassignment var) (.constantReassignment var') span)
    (v : Float) : P.InStep signals (assign var span v) (assign var' span v) := by
  intro s s' hs
  have write := carries.write (v := v) hs
  rw [assign_apply, assign_apply, ← carries.agree hs]
  rcases slot : s.slot? var with _ | old | old <;> rw [slot] at write
  · exact .ok (write nofun)
  · exact .ok (write nofun)
  · exact .error constant hs

protected theorem change (carries : P.Carries .update var var')
    (constant : FailAlike signals (.constantReassignment var) (.constantReassignment var') span)
    (unset : FailAlike signals (.uninitializedVariable var) (.uninitializedVariable var') span)
    (f : Float → Float) : P.InStep signals (change var span f) (change var' span f) := by
  intro s s' hs
  have agree := carries.agree hs
  rw [change_apply, change_apply, ← agree]
  rcases slot : s.slot? var with _ | old | old
  · exact .error unset hs
  · exact .ok (carries.write hs ⟨old, slot⟩)
  · exact .error constant hs

end

/-! ## Blocks and switches -/

/-- A signal that leaves a block is related if it is before it takes a value along. -/
protected theorem block {codes codes' : List Code}
    (h : List.Forall₂ (P.InStep signals) codes codes')
    (carry : ∀ {e e'} last, signals e e' → signals (e.carry last) (e'.carry last))
    (last : Option Float) : P.InStep signals (block codes last) (block codes' last) := by
  induction h generalizing last with
  | nil => exact .pure last
  | @cons stmt stmt' rest rest' hstmt _ ih =>
    intro s s' hs
    have ends := hstmt s s' hs
    generalize left : stmt P.left s = r, right : stmt' P.right s' = r' at ends
    cases ends with
    | ok hs =>
      rw [block_cons_of_ok left, block_cons_of_ok right]
      exact ih _ _ _ hs
    | error he hs =>
      rw [block_cons_of_error left, block_cons_of_error right]
      exact .error (carry last he) hs
    | cut hc =>
      rw [block_cons_of_error left]
      exact .cut hc

/-- The bodies may raise more than the whole: what the switch takes in does not get out. -/
protected theorem fallThrough {inner : Signal → Signal → Prop} {codes codes' : List Code}
    (h : List.Forall₂ (P.InStep inner) codes codes')
    (same : ∀ {e e'}, inner e e' → e.left? = e'.left?)
    (outer : ∀ {e e'}, inner e e' → e.left? = none → signals e e') (last : Option Float) :
    P.InStep signals (fallThrough codes last) (fallThrough codes' last) := by
  induction h generalizing last with
  | nil => exact .pure last
  | @cons body body' rest rest' hbody _ ih =>
    intro s s' hs
    have ends := hbody s s' hs
    generalize left : body P.left s = r, right : body' P.right s' = r' at ends
    cases ends with
    | ok hs =>
      rw [fallThrough_cons_of_ok left, fallThrough_cons_of_ok right]
      exact ih _ _ _ hs
    | @error e e' _ _ he hs =>
      cases taken : e.left? with
      | some value =>
        rw [fallThrough_cons_of_left left taken,
          fallThrough_cons_of_left right ((same he).symm.trans taken)]
        exact .ok hs
      | none =>
        rw [fallThrough_cons_of_error left taken,
          fallThrough_cons_of_error right ((same he).symm.trans taken)]
        exact .error (outer he taken) hs
    | cut hc =>
      rw [fallThrough_cons_of_error left rfl]
      exact .cut hc

/-! ## Loops -/

/-- What the loop takes in ends the lap in both runs; what it does not take in gets out. -/
protected theorem lap {inner : Signal → Signal → Prop} {body body' : Code}
    (h : P.InStep inner body body')
    (same : ∀ {e e'}, inner e e' → e.lap? = e'.lap?)
    (outer : ∀ {e e'}, inner e e' → e.lap? = none → signals e e') :
    P.InStep signals (lap body) (lap body') := by
  intro s s' hs
  have ends := h s s' hs
  generalize left : body P.left s = r, right : body' P.right s' = r' at ends
  cases ends with
  | ok hs =>
    rw [lap_of_ok left, lap_of_ok right]
    exact .ok hs
  | @error e e' _ _ he hs =>
    cases taken : e.lap? with
    | some ended =>
      rw [lap_of_taken left taken, lap_of_taken right ((same he).symm.trans taken)]
      exact .ok hs
    | none =>
      rw [lap_of_error left taken, lap_of_error right ((same he).symm.trans taken)]
      exact .error (outer he taken) hs
  | cut hc =>
    rw [lap_of_error left rfl]
    exact .cut hc

protected theorem checkDeadline {span : Span}
    (timeout : FailsAlike signals .timeout span) :
    P.InStep signals (checkDeadline span) (checkDeadline span) := by
  apply readSetting
  intro s s' hs
  rcases P.expired with same | ⟨not_yet, cut⟩
  · rw [same]
    split
    · exact .error timeout hs
    · exact .ok hs
  · rw [not_yet]
    split
    · exact .cut cut
    · exact .ok hs

protected theorem exhausted {span : Span}
    (limit : FailsAlike signals (.iterationLimit P.left.ceiling) span) :
    P.InStep signals (exhausted span : Run α) (exhausted span) := by
  apply readSetting
  intro s s' hs
  rcases P.ceiling with same | ⟨-, cut⟩
  · rw [← same]
    exact .error limit hs
  · exact .cut (cut _)

/-- Whatever the right run goes on to do, the left one is cut short if it is exhausted. -/
private theorem exhausted_left (cut : ∀ limit, P.cut (.iterationLimit limit)) (span : Span) :
    P.InStep signals (exhausted span) m' := fun _ _ _ => .cut (cut _)

end InStep

/-- The loops have the same place and their parts are in step. -/
structure LoopsInStep (P : Pairing) (signals : Signal → Signal → Prop) (l l' : Loop) : Prop where
  span : l.span = l'.span
  test : P.InStep signals l.test l'.test
  advance : P.InStep signals l.advance l'.advance
  lap : P.InStep signals (lap l.body) (lap l'.body)
  timeout : FailsAlike signals .timeout l.span
  limit : FailsAlike signals (.iterationLimit P.left.ceiling) l.span

namespace LoopsInStep

variable {P : Pairing} {signals : Signal → Signal → Prop} {l l' : Loop}

/-- As long as both runs have iterations left, they do the same ones. -/
private theorem iterate (h : P.LoopsInStep signals l l') {left left' : Nat}
    (counts : IterationsFit P.cut left left') (last : Option Float) :
    P.InStep signals (l.iterate left last) (l'.iterate left' last) := by
  induction left generalizing left' last with
  | zero =>
    cases left' with
    | zero =>
      rw [Loop.iterate, Loop.iterate, ← h.span]
      refine .bind h.test fun goes => ?_
      cases goes with
      | true => exact .exhausted h.limit
      | false => exact .pure last
    | succ left' =>
      rw [Loop.iterate, Loop.iterate]
      refine .bind h.test fun goes => ?_
      cases goes with
      | true => exact .exhausted_left counts.cut_of_zero l.span
      | false => exact .pure last
  | succ left ih =>
    cases left' with
    | zero => exact absurd counts IterationsFit.not_succ_zero
    | succ left' =>
      have ih := ih counts.pred
      rw [Loop.iterate, Loop.iterate, ← h.span]
      refine .bind h.test fun goes => ?_
      cases goes with
      | false => exact .pure last
      | true =>
        refine .bind (.checkDeadline h.timeout) fun _ => .bind h.lap fun ended => ?_
        cases ended with
        | completed value => exact .bind h.advance fun _ => ih value
        | skipped => exact .bind h.advance fun _ => ih last
        | left value => exact .pure _

theorem run (h : P.LoopsInStep signals l l') : P.InStep signals l.run l'.run :=
  .readSetting (h.iterate P.ceiling none)

private theorem iterateBodyFirst (h : P.LoopsInStep signals l l') {left left' : Nat}
    (counts : IterationsFit P.cut left left') (last : Option Float) :
    P.InStep signals (l.iterateBodyFirst left last) (l'.iterateBodyFirst left' last) := by
  induction left generalizing left' last with
  | zero =>
    cases left' with
    | zero =>
      rw [Loop.iterateBodyFirst, Loop.iterateBodyFirst, ← h.span]
      exact .exhausted h.limit
    | succ left' =>
      rw [Loop.iterateBodyFirst]
      exact .exhausted_left counts.cut_of_zero l.span
  | succ left ih =>
    cases left' with
    | zero => exact absurd counts IterationsFit.not_succ_zero
    | succ left' =>
      have ih := ih counts.pred
      rw [Loop.iterateBodyFirst, Loop.iterateBodyFirst, ← h.span]
      refine .bind (.checkDeadline h.timeout) fun _ => .bind h.lap fun ended => ?_
      cases ended with
      | completed value =>
        refine .bind h.test fun goes => ?_
        cases goes with
        | true => exact ih value
        | false => exact .pure value
      | skipped =>
        refine .bind h.test fun goes => ?_
        cases goes with
        | true => exact ih last
        | false => exact .pure last
      | left value => exact .pure _

theorem runBodyFirst (h : P.LoopsInStep signals l l') :
    P.InStep signals l.runBodyFirst l'.runBodyFirst :=
  .readSetting (h.iterateBodyFirst P.ceiling none)

end LoopsInStep

/-- The loops have the same place, and counters and bodies that are in step. -/
structure CountedLoopsInStep (P : Pairing) (signals : Signal → Signal → Prop) (l l' : CountedLoop) :
    Prop where
  span : l.span = l'.span
  carries : P.Carries .bind l.counter l'.counter
  lap : P.InStep signals (lap l.body) (lap l'.body)
  constant : FailAlike signals (.constantReassignment l.counter) (.constantReassignment l'.counter)
    l.span
  timeout : FailsAlike signals .timeout l.span
  limit : FailsAlike signals (.iterationLimit P.left.ceiling) l.span

namespace CountedLoopsInStep

variable {P : Pairing} {signals : Signal → Signal → Prop} {l l' : CountedLoop}

private theorem iterate (h : P.CountedLoopsInStep signals l l') (bound : Float) {left left' : Nat}
    (counts : IterationsFit P.cut left left') (count : Float) (last : Option Float) :
    P.InStep signals (l.iterate bound left count last) (l'.iterate bound left' count last) := by
  induction left generalizing left' count last with
  | zero =>
    cases left' with
    | zero =>
      rw [CountedLoop.iterate, CountedLoop.iterate, ← h.span]
      split
      · exact .exhausted h.limit
      · exact .pure last
    | succ left' =>
      rw [CountedLoop.iterate, CountedLoop.iterate]
      split
      · exact .exhausted_left counts.cut_of_zero l.span
      · exact .pure last
  | succ left ih =>
    cases left' with
    | zero => exact absurd counts IterationsFit.not_succ_zero
    | succ left' =>
      have ih := ih counts.pred
      rw [CountedLoop.iterate, CountedLoop.iterate, ← h.span]
      split
      next =>
        refine .bind (.checkDeadline h.timeout) fun _ => ?_
        refine .bind (.assign h.carries h.constant count) fun _ => .bind h.lap fun ended => ?_
        cases ended with
        | completed value => exact ih _ value
        | skipped => exact ih _ last
        | left value => exact .pure _
      next => exact .pure last

theorem run (h : P.CountedLoopsInStep signals l l') (first last : Float) :
    P.InStep signals (l.run first last) (l'.run first last) :=
  .readSetting (h.iterate last P.ceiling first none)

end CountedLoopsInStep

namespace InStep

variable {P : Pairing} {signals : Signal → Signal → Prop} {span : Span}

/-! ## Operators and exits -/

protected theorem compute {operand operand' : Code} (h : P.InStep signals operand operand')
    (noValue : FailsAlike signals .noValue span) (f : Float → Float) :
    P.InStep signals (compute f operand span) (compute f operand' span) :=
  .bind (.required h noValue) fun v => .pure (some (f v))

section
variable {var var' : String} (carries : P.Carries .update var var')
  (constant : FailAlike signals (.constantReassignment var) (.constantReassignment var') span)
  (unset : FailAlike signals (.uninitializedVariable var) (.uninitializedVariable var') span)
include carries constant unset

protected theorem stepBefore (delta : Float) :
    P.InStep signals (stepBefore delta var span) (stepBefore delta var' span) :=
  .bind (.change carries constant unset _) fun values => .pure (some values.2)

protected theorem stepAfter (delta : Float) :
    P.InStep signals (stepAfter delta var span) (stepAfter delta var' span) :=
  .bind (.change carries constant unset _) fun values => .pure (some values.1)

end

protected theorem binary (op : BinaryOp) {left left' right right' : Code}
    {leftSpan rightSpan : Span} (hleft : P.InStep signals left left')
    (hright : P.InStep signals right right')
    (noLeft : FailsAlike signals .noValue leftSpan)
    (noRight : FailsAlike signals .noValue rightSpan) :
    P.InStep signals (binary op left leftSpan right rightSpan)
      (binary op left' leftSpan right' rightSpan) := by
  refine .bind (.required hleft noLeft) fun l => ?_
  cases op with
  | and =>
    dsimp only
    split
    · exact .bind (.condition hright noRight) fun b => .pure (some (ofBool b))
    · exact .pure (some 0)
  | or =>
    dsimp only
    split
    · exact .pure (some 1)
    · exact .bind (.condition hright noRight) fun b => .pure (some (ofBool b))
  | _ => exact .bind (.required hright noRight) fun r => .pure (some (BinaryOp.apply _ l r))

protected theorem branch {cond cond' yes yes' no no' : Code} (hcond : P.InStep signals cond cond')
    (hyes : P.InStep signals yes yes') (hno : P.InStep signals no no')
    (noValue : FailsAlike signals .noValue span) :
    P.InStep signals (branch cond span yes no) (branch cond' span yes' no') := by
  refine .bind (.condition hcond noValue) fun holds => ?_
  cases holds with
  | true => exact hyes
  | false => exact hno

protected theorem returnWith {value value' : Option Code}
    (h : Option.Rel (P.InStep signals) value value')
    (returns : ∀ v, signals (.returns v) (.returns v)) :
    P.InStep signals (returnWith value) (returnWith value') := by
  cases h with
  | none => exact .throw (returns none)
  | some h => exact .bind h fun v => .throw (returns v)

/-- A plain assignment may create the variable, any other one needs it to be there. -/
protected theorem assignment {op : AssignOp} {var var' : String} {valueSpan : Span}
    {value value' : Code} (h : P.InStep signals value value')
    (noValue : FailsAlike signals .noValue valueSpan)
    (carries : P.Carries (if op.binary?.isSome then .update else .bind) var var')
    (constant : FailAlike signals (.constantReassignment var) (.constantReassignment var') span)
    (unset : op.binary?.isSome →
      FailAlike signals (.uninitializedVariable var) (.uninitializedVariable var') span) :
    P.InStep signals (assignment op var span value valueSpan)
      (assignment op var' span value' valueSpan) := by
  refine .bind (.required h noValue) fun v => ?_
  cases binary : op.binary? with
  | none =>
    rw [binary] at carries
    exact .bind (.assign carries constant v) fun _ => .pure (some v)
  | some op' =>
    rw [binary] at carries unset
    exact .bind (.change carries constant (unset rfl) _) fun values => .pure (some values.2)

end InStep

/-! ## Calls -/

/-- Arguments in step: runs that are, or one variable that is written back. -/
inductive ArgumentsInStep (P : Pairing) (signals : Signal → Signal → Prop) :
    Argument → Argument → Prop where
  | value {code code' span} : P.InStep signals code code' →
    FailsAlike signals .noValue span →
    ArgumentsInStep P signals (.value code span) (.value code' span)
  | reference {var var' span} : P.Carries .bind var var' →
    FailAlike signals (.constantReassignment var) (.constantReassignment var') span →
    ArgumentsInStep P signals (.reference var span) (.reference var' span)

namespace InStep

variable {P : Pairing} {signals : Signal → Signal → Prop} {span : Span} {args args' : List Argument}

private theorem collectAll (h : List.Forall₂ (P.ArgumentsInStep signals) args args') :
    P.InStep signals (collectAll args) (collectAll args') := by
  induction h with
  | nil => exact .pure []
  | @cons arg arg' rest rest' harg _ ih =>
    refine .bind ?_ fun v => .bind ih fun values => .pure (v :: values)
    cases harg with
    | value h noValue => exact .required h noValue
    | reference carries constant => exact .copyIn carries.agree constant

private theorem writeBack (h : List.Forall₂ (P.ArgumentsInStep signals) args args')
    (buffer : List Float) : P.InStep signals (writeBack args buffer) (writeBack args' buffer) := by
  induction h generalizing buffer with
  | nil => exact .pure ()
  | @cons arg arg' rest rest' harg _ ih =>
    cases buffer with
    | nil => cases harg <;> exact .pure ()
    | cons v buffer =>
      cases harg with
      | value => exact ih buffer
      | reference carries constant => exact .bind (.assign carries constant v) fun _ => ih buffer

protected theorem call {id : FunctionId} {name : String}
    (h : List.Forall₂ (P.ArgumentsInStep signals) args args')
    (mismatch : P.left.registry.function? id = none →
      FailsAlike signals .registryMismatch span)
    (failed : ∀ message, FailsAlike signals (.functionFailed name message) span)
    (overruns : signals .overruns .overruns) :
    P.InStep signals (call id name args span) (call id name args' span) := by
  refine .bind (.collectAll h) fun values => .readSetting ?_
  rw [← P.function? id]
  cases found : P.left.registry.function? id with
  | none => exact .failAt (mismatch found)
  | some function =>
    dsimp only
    cases (function.run values).result with
    | failed message => exact .failAt (failed message)
    | overrun => exact .throw overruns
    | value result => exact .bind (.writeBack h _) fun _ => .pure (some result)

end InStep

end Pairing
end ShapeScript
