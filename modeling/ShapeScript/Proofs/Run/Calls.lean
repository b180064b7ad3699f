import ShapeScript.Proofs.Run.Outcome

/-!
# Calls of natives, from the first argument to the write-back

The arguments of a call are either all taken, in order (`Taken`), or one of them is refused
(`Refused`). A variable passed by reference is only looked at, so the slots in which a native runs
are those that the arguments passed by value leave (`Taken.values_only`). Code creates no constants
(`ConstantsStay`), hence all variables passed by reference can still be written when the native
returns (`Taken.writeBack`). What is written back is told by position (`WrittenBack`). Together this
is what a call does (`CallOutcome`).
-/

namespace ShapeScript

/-- The function hands back as many numbers as it is given. -/
def HostFunction.KeepsLength (f : HostFunction) : Prop :=
  ∀ values, (f.run values).buffer.length = values.length

namespace Run

/-- However it ends, code leaves no constant that has not been there. -/
def ConstantsStay (setting : Setting) (code : Code) : Prop :=
  ∀ s s', (∃ value, code setting s = .ok value s') ∨ (∃ signal, code setting s = .error signal s') →
    ∀ name v, s'.slot? name = some (.const v) → s.slot? name = some (.const v)

def Argument.isValue : Argument → Bool
  | value .. => true
  | reference .. => false

/-- What a variable passed by reference brings along: its value, or zero if it is not bound. -/
inductive CopiesIn (s : Slots) (var : String) : Float → Prop where
  | held {v} : s.slot? var = some (.var v) → CopiesIn s var v
  | unbound : s.slot? var = none → CopiesIn s var 0

/-- Arguments taken in order, with what each of them brings along and the slots behind the last. A
reference does not change the slots. -/
inductive Taken (setting : Setting) : List Argument → Slots → List Float → Slots → Prop where
  | nil {s} : Taken setting [] s [] s
  | value {code span rest s v s₁ values s'} : code setting s = .ok (some v) s₁ →
    Taken setting rest s₁ values s' → Taken setting (.value code span :: rest) s (v :: values) s'
  | reference {var span rest s v values s'} : CopiesIn s var v → Taken setting rest s values s' →
    Taken setting (.reference var span :: rest) s (v :: values) s'

/-- One of the arguments ends the call, after those in front of it have been taken. -/
inductive Refused (setting : Setting) : List Argument → Slots → Signal → Slots → Prop where
  | signal {code span rest s signal s'} : code setting s = .error signal s' →
    Refused setting (.value code span :: rest) s signal s'
  | noValue {code span rest s s'} : code setting s = .ok none s' →
    Refused setting (.value code span :: rest) s (.failsAt .noValue span) s'
  | constant {var span rest s v} : s.slot? var = some (.const v) →
    Refused setting (.reference var span :: rest) s (.failsAt (.constantReassignment var) span) s
  | afterValue {code span rest s v s₁ signal s'} : code setting s = .ok (some v) s₁ →
    Refused setting rest s₁ signal s' → Refused setting (.value code span :: rest) s signal s'
  | afterReference {var span rest s v signal s'} : CopiesIn s var v →
    Refused setting rest s signal s' → Refused setting (.reference var span :: rest) s signal s'

/-- The slots after the buffer has been handed back to the variables passed by reference. -/
structure WrittenBack (args : List Argument) (buffer : List Float) (s s' : Slots) : Prop where
  /-- The last position of a variable wins. -/
  bound {i : Nat} {var span v} : args[i]? = some (.reference var span) → buffer[i]? = some v →
    (∀ (j : Nat) span', i < j → args[j]? ≠ some (.reference var span')) →
    s'.slot? var = some (.var v)
  untouched {name} : (∀ span, .reference name span ∉ args) → s'.slot? name = s.slot? name

/-- How a call of a function ends, by how its arguments and then the function end. -/
structure CallOutcome (f : HostFunction) (name : String) (args : List Argument) (span : Span)
    (setting : Setting) (s : Slots) (result : EStateM.Result Signal Slots (Option Float)) :
    Prop where
  refused {signal s'} : Refused setting args s signal s' → result = .error signal s'
  /-- Whatever the function has left in the buffer, the slots are those it was called in. -/
  failed {values s' message} : Taken setting args s values s' →
    (f.run values).result = .failed message →
    result = .error (.failsAt (.functionFailed name message) span) s'
  overrun {values s'} : Taken setting args s values s' → (f.run values).result = .overrun →
    result = .error .overruns s'
  succeeded {values s' v} : Taken setting args s values s' → (f.run values).result = .value v →
    ∃ s'', result = .ok (some v) s'' ∧ WrittenBack args (f.run values).buffer s' s''
  /-- The slots that a function is called in are those that the arguments passed by value leave. -/
  values_only {values s'} : Taken setting args s values s' →
    ∃ values', Taken setting (args.filter Argument.isValue) s values' s'
  taken_or_refused : (∃ values s', Taken setting args s values s') ∨
    ∃ signal s', Refused setting args s signal s'

section
variable {setting : Setting} {args rest : List Argument} {s s' : Slots} {values : List Float}

namespace CopiesIn

variable {var : String} {v : Float}

theorem copyIn (h : CopiesIn s var v) (span : Span) : copyIn var span setting s = .ok v s := by
  rw [copyIn_apply]
  cases h with
  | held held => rw [held]
  | unbound free => rw [free]

theorem not_constant (h : CopiesIn s var v) (w : Float) : s.slot? var ≠ some (.const w) := by
  cases h with
  | held held => simp [held]
  | unbound free => simp [free]

end CopiesIn

/-! ## Arguments -/

namespace Taken

theorem length_eq (h : Taken setting args s values s') : values.length = args.length := by
  induction h with
  | nil => rfl
  | value _ _ ih | reference _ _ ih => rw [List.length_cons, ih, List.length_cons]

theorem values_only (h : Taken setting args s values s') :
    ∃ values', Taken setting (args.filter Argument.isValue) s values' s' := by
  induction h with
  | nil => exact ⟨[], .nil⟩
  | @value code span rest s v s₁ values s' run _ ih =>
    obtain ⟨values', taken⟩ := ih
    exact ⟨v :: values', .value run taken⟩
  | reference _ _ ih => exact ih

theorem collectAll (h : Taken setting args s values s') :
    collectAll args setting s = .ok values s' := by
  induction h with
  | nil => rfl
  | value run _ ih =>
    rw [Run.collectAll, Argument.collect, bind_of_ok (required_of_value run _), bind_of_ok ih]
    rfl
  | reference copies _ ih =>
    rw [Run.collectAll, Argument.collect, bind_of_ok (copies.copyIn _), bind_of_ok ih]
    rfl

end Taken

theorem Refused.collectAll {signal : Signal} (h : Refused setting args s signal s') :
    collectAll args setting s = .error signal s' := by
  induction h with
  | signal run => rw [Run.collectAll, Argument.collect, required, bind_of_error (bind_of_error run)]
  | @noValue code span rest s s' run =>
    have refuses : required code span setting s = .error (.failsAt .noValue span) s' := by
      rw [required, bind_of_ok run]
      rfl
    rw [Run.collectAll, Argument.collect, bind_of_error refuses]
  | @constant var span rest s v held =>
    have refuses : copyIn var span setting s =
        .error (.failsAt (.constantReassignment var) span) s := by
      rw [copyIn_apply, held]
    rw [Run.collectAll, Argument.collect, bind_of_error refuses]
  | afterValue run _ ih =>
    rw [Run.collectAll, Argument.collect, bind_of_ok (required_of_value run _), bind_of_error ih]
  | afterReference copies _ ih =>
    rw [Run.collectAll, Argument.collect, bind_of_ok (copies.copyIn _), bind_of_error ih]

theorem taken_or_refused (args : List Argument) (setting : Setting) (s : Slots) :
    (∃ values s', Taken setting args s values s') ∨
      ∃ signal s', Refused setting args s signal s' := by
  induction args generalizing s with
  | nil => exact .inl ⟨[], s, .nil⟩
  | cons arg rest ih =>
    cases arg with
    | value code span =>
      rcases run : code setting s with ⟨_ | v, s₁⟩ | ⟨signal, s₁⟩
      · exact .inr ⟨_, s₁, .noValue run⟩
      · rcases ih s₁ with ⟨values, s', taken⟩ | ⟨signal, s', refused⟩
        · exact .inl ⟨v :: values, s', .value run taken⟩
        · exact .inr ⟨signal, s', .afterValue run refused⟩
      · exact .inr ⟨signal, s₁, .signal run⟩
    | reference var span =>
      have copied : (∃ v, CopiesIn s var v) ∨ ∃ v, s.slot? var = some (.const v) := by
        rcases slot : s.slot? var with _ | v | v
        · exact .inl ⟨0, .unbound slot⟩
        · exact .inl ⟨v, .held slot⟩
        · exact .inr ⟨v, rfl⟩
      rcases copied with ⟨v, copies⟩ | ⟨v, constant⟩
      · rcases ih s with ⟨values, s', taken⟩ | ⟨signal, s', refused⟩
        · exact .inl ⟨v :: values, s', .reference copies taken⟩
        · exact .inr ⟨signal, s', .afterReference copies refused⟩
      · exact .inr ⟨_, s, .constant constant⟩

/-! ## The write-back -/

namespace WrittenBack

variable {buffer : List Float} {span : Span}

theorem nil (s : Slots) : WrittenBack [] buffer s s := ⟨nofun, fun _ => rfl⟩

/-- An argument passed by value gets nothing back. -/
theorem skip (h : WrittenBack rest buffer s s') (code : Code) (span : Span) (v : Float) :
    WrittenBack (.value code span :: rest) (v :: buffer) s s' where
  bound {i} _ _ _ harg hv last := by
    cases i with
    | zero => cases harg
    | succ i => exact h.bound harg hv fun j span lt => last (j + 1) span (Nat.succ_lt_succ lt)
  untouched no := h.untouched fun span mem => no span (.tail _ mem)

/-- What a position writes stays unless the variable stands at a later position too. -/
theorem write {var : String} {v : Float} (h : WrittenBack rest buffer (s.write var v) s')
    (span : Span) : WrittenBack (.reference var span :: rest) (v :: buffer) s s' where
  bound {i} _ _ _ harg hv last := by
    cases i with
    | succ i => exact h.bound harg hv fun j span lt => last (j + 1) span (Nat.succ_lt_succ lt)
    | zero =>
      cases harg
      cases hv
      have unnamed : ∀ span, Argument.reference var span ∉ rest := by
        intro span mem
        obtain ⟨j, hj⟩ := List.mem_iff_getElem?.mp mem
        exact last (j + 1) span (Nat.succ_pos j) hj
      rw [h.untouched unnamed, Slots.slot?_write, if_pos rfl]
  untouched {name} no := by
    have ne : var ≠ name := by
      rintro rfl
      exact no span (.head _)
    rw [h.untouched fun span mem => no span (.tail _ mem), Slots.slot?_write, if_neg ne]

end WrittenBack

/-- If no variable passed by reference is a constant, all of them are written. -/
theorem writeBack_of_no_constant {buffer : List Float} (lengths : buffer.length = args.length)
    (free : ∀ var span v, .reference var span ∈ args → s.slot? var ≠ some (.const v)) :
    ∃ s', writeBack args buffer setting s = .ok () s' ∧ WrittenBack args buffer s s' := by
  induction args generalizing buffer s with
  | nil => exact ⟨s, rfl, .nil s⟩
  | cons arg rest ih =>
    obtain ⟨v, buffer, rfl⟩ := List.exists_cons_of_length_eq_add_one lengths
    have lengths' : buffer.length = rest.length := Nat.succ.inj lengths
    cases arg with
    | value code span =>
      obtain ⟨s', run, written⟩ := ih lengths' fun var span v mem => free var span v (.tail _ mem)
      exact ⟨s', run, written.skip code span v⟩
    | reference var span =>
      have assigned : assign var span v setting s = .ok () (s.write var v) := by
        rw [assign_apply]
        rcases slot : s.slot? var with _ | w | w
        · rfl
        · rfl
        · exact absurd slot (free var span w (.head _))
      have free' : ∀ name span w, .reference name span ∈ rest →
          (s.write var v).slot? name ≠ some (.const w) := by
        intro name span w mem
        rw [Slots.slot?_write]
        split
        · nofun
        · exact free name span w (.tail _ mem)
      obtain ⟨s', run, written⟩ := ih lengths' free'
      refine ⟨s', ?_, written.write span⟩
      rw [writeBack, bind_of_ok assigned, run]

namespace Taken

variable (stay : ∀ code span, .value code span ∈ args → ConstantsStay setting code)
include stay

/-- No variable passed by reference is a constant when all arguments have been taken: it was none at
its turn, and the arguments behind it create none. -/
theorem no_constant (h : Taken setting args s values s') :
    (∀ name v, s'.slot? name = some (.const v) → s.slot? name = some (.const v)) ∧
      ∀ var span v, .reference var span ∈ args → s'.slot? var ≠ some (.const v) := by
  induction h with
  | nil => exact ⟨fun _ _ held => held, nofun⟩
  | @value code span rest s v s₁ values s' run _ ih =>
    obtain ⟨back, free⟩ := ih fun code span mem => stay code span (.tail _ mem)
    refine ⟨fun name w held => ?_, fun var span' w mem => ?_⟩
    · exact stay code span (.head _) s s₁ (.inl ⟨_, run⟩) name w (back name w held)
    · exact free var span' w ((List.mem_cons.mp mem).resolve_left nofun)
  | @reference var span rest s v values s' copies _ ih =>
    obtain ⟨back, free⟩ := ih fun code span mem => stay code span (.tail _ mem)
    refine ⟨back, fun name span' w mem => ?_⟩
    rcases List.mem_cons.mp mem with same | behind
    · cases same
      exact fun constant => copies.not_constant w (back var w constant)
    · exact free name span' w behind

/-- What a function hands back can always be written. -/
theorem writeBack (h : Taken setting args s values s') {f : HostFunction} (keeps : f.KeepsLength) :
    ∃ s'', writeBack args (f.run values).buffer setting s' = .ok () s'' ∧
      WrittenBack args (f.run values).buffer s' s'' :=
  writeBack_of_no_constant ((keeps values).trans h.length_eq) (h.no_constant stay).2

end Taken

/-! ## Calls -/

theorem call_of_refused {id : FunctionId} {name : String} {span : Span} {signal : Signal}
    (h : Refused setting args s signal s') :
    call id name args span setting s = .error signal s' := by
  rw [call, bind_of_error h.collectAll]

theorem call_of_taken {id : FunctionId} {f : HostFunction} {name : String} {span : Span}
    (found : setting.registry.function? id = some f) (h : Taken setting args s values s') :
    call id name args span setting s =
      (match (f.run values).result with
        | .failed message => failAt (.functionFailed name message) span
        | .overrun => throw .overruns
        | .value v => do
          Run.writeBack args (f.run values).buffer
          return some v : Code) setting s' := by
  have reads : (readThe Setting : Run Setting) setting s' = .ok setting s' := rfl
  rw [call, bind_of_ok h.collectAll, bind_of_ok reads]
  cases ended : (f.run values).result with
  | failed | overrun | value => simp only [found, ended]

/-- A call of a function that keeps the length of its buffer, with arguments that create no
constants: a failure leaves the slots that the function was called in, and a success writes all
that it has to write. -/
theorem call_outcome {id : FunctionId} {f : HostFunction}
    (found : setting.registry.function? id = some f) (keeps : f.KeepsLength)
    (stay : ∀ code span, .value code span ∈ args → ConstantsStay setting code) (name : String)
    (span : Span) (s : Slots) :
    CallOutcome f name args span setting s (call id name args span setting s) where
  refused := call_of_refused
  failed taken ended := by
    rw [call_of_taken found taken, ended]
    rfl
  overrun taken ended := by
    rw [call_of_taken found taken, ended]
    rfl
  succeeded taken ended := by
    obtain ⟨s'', run, written⟩ := taken.writeBack stay keeps
    refine ⟨s'', ?_, written⟩
    rw [call_of_taken found taken, ended]
    exact bind_of_ok run
  values_only := Taken.values_only
  taken_or_refused := taken_or_refused args setting s

end

end Run
end ShapeScript
