import ShapeScript.Proofs.Run.Outcome

/-!
# Runs one after the other

Runs in order either all end with values, each starting with the slots that the one before it has
left (`Completes`), or one of them ends with a signal and those behind it do not run (`Stops`). What
a switch answers is read off from that (`fallThrough_fallsThrough`).

A run comes to the runs that it is put together from, each in the slots that those before it have
left (`Reaches`). A failure of one of them is the failure of the whole (`Reaches.error`).
-/

namespace ShapeScript.Run

/-- All runs end with values. -/
inductive Completes (setting : Setting) {α : Type} :
    List (Run α) → Slots → List α → Slots → Prop where
  | nil {s} : Completes setting [] s [] s
  | cons {m rest s a s₁ values s'} : m setting s = .ok a s₁ →
    Completes setting rest s₁ values s' → Completes setting (m :: rest) s (a :: values) s'

/-- Some runs end with values, and the next one with a signal. -/
inductive Stops (setting : Setting) {α : Type} :
    List (Run α) → Slots → List α → Signal → Slots → Prop where
  | here {m rest s signal s'} : m setting s = .error signal s' →
    Stops setting (m :: rest) s [] signal s'
  | later {m rest s a s₁ values signal s'} : m setting s = .ok a s₁ →
    Stops setting rest s₁ values signal s' → Stops setting (m :: rest) s (a :: values) signal s'

theorem completes_or_stops {α : Type} (runs : List (Run α)) (setting : Setting) (s : Slots) :
    (∃ values s', Completes setting runs s values s') ∨
      ∃ values signal s', Stops setting runs s values signal s' := by
  induction runs generalizing s with
  | nil => exact .inl ⟨[], s, .nil⟩
  | cons m rest ih =>
    rcases run : m setting s with ⟨a, s₁⟩ | ⟨signal, s₁⟩
    · rcases ih s₁ with ⟨values, s', completes⟩ | ⟨values, signal, s', stops⟩
      · exact .inl ⟨a :: values, s', .cons run completes⟩
      · exact .inr ⟨a :: values, signal, s', .later run stops⟩
    · exact .inr ⟨[], signal, s₁, .here run⟩

section
variable {setting : Setting} {codes : List Code} {values : List (Option Float)} {s s' : Slots}

/-- A signal leaves the block as it does after the statement before it. -/
theorem block_of_stops {signal : Signal} (h : Stops setting codes s values signal s')
    (last : Option Float) :
    block codes last setting s = .error (signal.carry (values.getLast?.getD last)) s' := by
  induction h generalizing last with
  | here run => exact block_cons_of_error run
  | @later stmt rest s value s₁ values signal s' run _ ih =>
    rw [block_cons_of_ok run, ih, List.getLast?_cons, Option.getD_some]

/-- Bodies that all run to their ends answer the value of the last one. -/
theorem fallThrough_of_completes (h : Completes setting codes s values s') (last : Option Float) :
    fallThrough codes last setting s = .ok (values.getLast?.getD last) s' := by
  induction h generalizing last with
  | nil => rfl
  | @cons body rest s value s₁ values s' run _ ih =>
    rw [fallThrough_cons_of_ok run, ih, List.getLast?_cons, Option.getD_some]

/-- A break answers its own value or else that of the body before it; other signals pass. -/
theorem fallThrough_of_stops {signal : Signal} (h : Stops setting codes s values signal s')
    (last : Option Float) : fallThrough codes last setting s =
      match signal.left? with
      | some value => .ok (value.or (values.getLast?.getD last)) s'
      | none => .error signal s' := by
  induction h generalizing last with
  | here run =>
    cases taken : Signal.left? _ with
    | some value => exact fallThrough_cons_of_left run taken
    | none => exact fallThrough_cons_of_error run taken
  | @later body rest s value s₁ values signal s' run _ ih =>
    rw [fallThrough_cons_of_ok run, ih, List.getLast?_cons, Option.getD_some]

end

/-- The result of bodies that run one after the other. If all of them end with values, the answer
is the value of the last one, or no value if there is none. A break answers its own value or else
that of the body before it, and other signals pass. One of these is the case. -/
structure FallsThrough (setting : Setting) (bodies : List Code) (s : Slots)
    (result : EStateM.Result Signal Slots (Option Float)) : Prop where
  ended {values s'} : Completes setting bodies s values s' →
    result = .ok (values.getLast?.getD none) s'
  broken {values own span s'} : Stops setting bodies s values (.breaks own span) s' →
    result = .ok (own.or (values.getLast?.getD none)) s'
  passed {values signal s'} : Stops setting bodies s values signal s' → signal.left? = none →
    result = .error signal s'
  ends_or_stops : (∃ values s', Completes setting bodies s values s') ∨
    ∃ values signal s', Stops setting bodies s values signal s'

theorem fallThrough_fallsThrough (bodies : List Code) (setting : Setting) (s : Slots) :
    FallsThrough setting bodies s (fallThrough bodies none setting s) where
  ended completes := fallThrough_of_completes completes none
  broken stops := fallThrough_of_stops stops none
  passed stops stays := by rw [fallThrough_of_stops stops, stays]
  ends_or_stops := completes_or_stops bodies setting s

/-! ## Where a run comes to -/

/-- The run, started with the slots, comes to start `u` with the slots `s'`. -/
inductive Reaches (setting : Setting) {β : Type} (u : Run β) (s' : Slots) :
    {α : Type} → Run α → Slots → Prop where
  | self : Reaches setting u s' u s'
  | bindLeft {α γ} {m : Run α} {f : α → Run γ} {s} : Reaches setting u s' m s →
    Reaches setting u s' (m >>= f) s
  | bindRight {α γ} {m : Run α} {f : α → Run γ} {a s s₁} : m setting s = .ok a s₁ →
    Reaches setting u s' (f a) s₁ → Reaches setting u s' (m >>= f) s
  | blockHead {stmt rest last s} : Reaches setting u s' stmt s →
    Reaches setting u s' (block (stmt :: rest) last) s
  | blockTail {stmt rest last value s s₁} : stmt setting s = .ok value s₁ →
    Reaches setting u s' (block rest value) s₁ → Reaches setting u s' (block (stmt :: rest) last) s
  | fallThroughHead {body rest last s} : Reaches setting u s' body s →
    Reaches setting u s' (fallThrough (body :: rest) last) s
  | fallThroughTail {body rest last value s s₁} : body setting s = .ok value s₁ →
    Reaches setting u s' (fallThrough rest value) s₁ →
    Reaches setting u s' (fallThrough (body :: rest) last) s
  | lap {body s} : Reaches setting u s' body s → Reaches setting u s' (lap body) s

/-- What no loop takes in ends the whole run, and in the same slots. -/
theorem Reaches.error {α β : Type} {setting : Setting} {u : Run β} {m : Run α} {s s' t : Slots}
    {signal : Signal} (h : Reaches setting u s' m s) (passes : signal.lap? = none)
    (ends : u setting s' = .error signal t) : m setting s = .error signal t := by
  have stays : signal.left? = none := by
    cases signal <;> first | rfl | cases passes
  have carried : ∀ last, signal.carry last = signal := by
    intro last
    cases signal <;> first | rfl | cases passes
  induction h with
  | self => exact ends
  | bindLeft _ ih => exact bind_of_error ih
  | bindRight run _ ih => rw [bind_of_ok run, ih]
  | blockHead _ ih => rw [block_cons_of_error ih, carried]
  | blockTail run _ ih => rw [block_cons_of_ok run, ih]
  | fallThroughHead _ ih => exact fallThrough_cons_of_error ih stays
  | fallThroughTail run _ ih => rw [fallThrough_cons_of_ok run, ih]
  | lap _ ih => exact lap_of_error ih passes

end ShapeScript.Run
