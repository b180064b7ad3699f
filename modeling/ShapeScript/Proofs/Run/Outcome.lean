import ShapeScript.Run.Block
import ShapeScript.Run.Loop
import ShapeScript.Run.Call

/-!
# Runs by their outcome

What the operations on slots do by the state of the slot, and how each way of putting runs together
goes on after a result and after a signal. What a block, a switch and a loop do with a signal of a
part depends on the signal alone: `Signal.carry`, `Signal.left?` and `Signal.lap?` say it once.
-/

namespace ShapeScript

namespace Signal

/-- The failure of a node. -/
abbrev failsAt (fault : RunFault) (span : Span) : Signal := .fails ⟨fault, some span⟩

/-- The signal as it leaves a block whose last value was `last`. -/
def carry (last : Option Float) : Signal → Signal
  | breaks value span => breaks (value.or last) span
  | signal => signal

/-- The value of a break, which a switch takes in. -/
def left? : Signal → Option (Option Float)
  | breaks value _ => some value
  | _ => none

/-- How a signal ends the body of a loop that takes it in. -/
def lap? : Signal → Option Run.Lap
  | breaks value _ => some (.left value)
  | continues _ => some .skipped
  | _ => none

@[simp] theorem carry_none (signal : Signal) : signal.carry none = signal := by
  cases signal <;> simp [carry]

end Signal

namespace Run

variable {α β : Type} {setting : Setting} {slots slots' : Slots} {signal : Signal}

/-- The slots that a run leaves, however it ends. -/
def slotsAfter : EStateM.Result Signal Slots α → Slots
  | .ok _ slots | .error _ slots => slots

/-- The value of a run that ends with one, and the slots it leaves. -/
def ended? : EStateM.Result Signal Slots α → Option (α × Slots)
  | .ok a slots => some (a, slots)
  | .error .. => none

theorem ended?_eq_some_iff {result : EStateM.Result Signal Slots α} {a : α} :
    ended? result = some (a, slots) ↔ result = .ok a slots := by
  cases result with
  | ok => simp [ended?]
  | error => simp [ended?]

theorem bind_of_ok {m : Run α} {f : α → Run β} {a : α} (h : m setting slots = .ok a slots') :
    (m >>= f) setting slots = f a setting slots' := by
  change EStateM.bind (m setting) (fun a => f a setting) slots = _
  rw [EStateM.bind, h]

theorem bind_of_error {m : Run α} {f : α → Run β} (h : m setting slots = .error signal slots') :
    (m >>= f) setting slots = .error signal slots' := by
  change EStateM.bind (m setting) (fun a => f a setting) slots = _
  rw [EStateM.bind, h]

theorem required_of_value {code : Code} {v : Float} (h : code setting slots = .ok (some v) slots')
    (span : Span) : required code span setting slots = .ok v slots' := by
  rw [required, bind_of_ok h]
  rfl

section
variable (var : String) (span : Span) (setting : Setting) (slots : Slots)

theorem read_apply : read var span setting slots =
    match slots.slot? var with
    | some slot => .ok slot.value slots
    | none => .error (.failsAt (.uninitializedVariable var) span) slots := by
  change orFail var span (slots.value var) setting slots = _
  rw [Slots.value]
  cases slots.slot? var <;> rfl

theorem copyIn_apply : copyIn var span setting slots =
    match slots.slot? var with
    | some (.var v) => .ok v slots
    | some (.const _) => .error (.failsAt (.constantReassignment var) span) slots
    | none => .ok 0 slots := by
  change (match slots.slot? var with
    | some (.var v) => pure v
    | some (.const _) => failAt (.constantReassignment var) span
    | none => pure 0 : Run Float) setting slots = _
  rcases slots.slot? var with _ | _ | _ <;> rfl

theorem assign_apply (v : Float) : assign var span v setting slots =
    match slots.slot? var with
    | some (.const _) => .error (.failsAt (.constantReassignment var) span) slots
    | _ => .ok () (slots.write var v) := by
  change (orFail var span (slots.assign var v) >>= set : Run Unit) setting slots = _
  rw [Slots.assign]
  rcases slots.slot? var with _ | _ | _ <;> rfl

theorem change_apply (f : Float → Float) : change var span f setting slots =
    match slots.slot? var with
    | some (.var old) => .ok (old, f old) (slots.write var (f old))
    | some (.const _) => .error (.failsAt (.constantReassignment var) span) slots
    | none => .error (.failsAt (.uninitializedVariable var) span) slots := by
  change (orFail var span (slots.varValue var) >>= fun old => do
    modify (·.write var (f old))
    return (old, f old) : Run (Float × Float)) setting slots = _
  rw [Slots.varValue]
  rcases slots.slot? var with _ | _ | _ <;> rfl

end

section
variable {stmt : Code} {rest : List Code} {value last : Option Float}

theorem block_cons_of_ok (h : stmt setting slots = .ok value slots') :
    block (stmt :: rest) last setting slots = block rest value setting slots' := by
  simp only [block, h]

theorem block_cons_of_error (h : stmt setting slots = .error signal slots') :
    block (stmt :: rest) last setting slots = .error (signal.carry last) slots' := by
  cases signal <;> simp only [block, h, Signal.carry]

theorem fallThrough_cons_of_ok (h : stmt setting slots = .ok value slots') :
    fallThrough (stmt :: rest) last setting slots = fallThrough rest value setting slots' := by
  simp only [fallThrough, h]

theorem fallThrough_cons_of_left (h : stmt setting slots = .error signal slots')
    (left : signal.left? = some value) :
    fallThrough (stmt :: rest) last setting slots = .ok (value.or last) slots' := by
  cases signal <;> cases left
  simp only [fallThrough, h]

theorem fallThrough_cons_of_error (h : stmt setting slots = .error signal slots')
    (stays : signal.left? = none) :
    fallThrough (stmt :: rest) last setting slots = .error signal slots' := by
  cases signal with
  | breaks => cases stays
  | _ => simp only [fallThrough, h]

end

section
variable {body : Code} {value : Option Float} {ended : Lap}

theorem lap_of_ok (h : body setting slots = .ok value slots') :
    lap body setting slots = .ok (.completed value) slots' := by
  simp only [lap, h]

theorem lap_of_taken (h : body setting slots = .error signal slots')
    (taken : signal.lap? = some ended) : lap body setting slots = .ok ended slots' := by
  cases signal <;> cases taken <;> simp only [lap, h]

theorem lap_of_error (h : body setting slots = .error signal slots')
    (passes : signal.lap? = none) : lap body setting slots = .error signal slots' := by
  cases signal with
  | breaks | continues => cases passes
  | _ => simp only [lap, h]

end

theorem checkDeadline_of_in_time (span : Span) (slots : Slots)
    (in_time : setting.deadline.isExpired setting.now = false) :
    checkDeadline span setting slots = .ok () slots := by
  change (if setting.deadline.isExpired setting.now then failAt .timeout span else pure () : Run Unit)
    setting slots = _
  rw [in_time]
  rfl

theorem checkDeadline_of_expired (span : Span) (slots : Slots)
    (expired : setting.deadline.isExpired setting.now = true) :
    checkDeadline span setting slots = .error (.failsAt .timeout span) slots := by
  change (if setting.deadline.isExpired setting.now then failAt .timeout span else pure () : Run Unit)
    setting slots = _
  rw [expired]
  rfl

/-- A block of one statement is that statement: a break that leaves it finds no earlier value. -/
theorem block_singleton (code : Code) : block [code] none = code := by
  funext setting slots
  cases h : code setting slots with
  | ok value slots =>
    rw [block_cons_of_ok h]
    rfl
  | error signal slots => rw [block_cons_of_error h, Signal.carry_none]

end Run

end ShapeScript
