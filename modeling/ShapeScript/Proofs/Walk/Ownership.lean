import ShapeScript.Proofs.Walk.InStep

/-!
# Breaks and continues stay with their owners

The scope of a node is found while compiling; which run takes in a signal is found while running.
Both agree. In `Scope.unchecked` every break and continue raises its signal, and the runs of loop
bodies and switch bodies take it in or nothing does. Compiled code does the same, but a signal that
nothing around the node would take in is a failure, at the place of the break or continue that
raised it (`SignalsOwned`).
-/

namespace ShapeScript

namespace Scope

/-- Every break and continue has something to leave. -/
def unchecked : Scope := ⟨true, true⟩

/-- The signal, or the failure of the break or continue that has no owner in the scope. -/
def settle (s : Scope) : Signal → Signal
  | .breaks value span =>
    if s.breakable then .breaks value span else .failsAt .breakOutsideLoop span
  | .continues span => if s.inLoop then .continues span else .failsAt .continueOutsideLoop span
  | signal => signal

/-- The end of a run with its signal settled. -/
def settleEnd (s : Scope) {α : Type} :
    EStateM.Result Signal Slots α → EStateM.Result Signal Slots α
  | .ok a slots => .ok a slots
  | .error signal slots => .error (s.settle signal) slots

end Scope

namespace Tree

/-- In its scope, the tree has a break at the place that no loop or switch takes in. -/
def HasFreeBreak (tree : Tree) (scope : Scope) (span : Span) : Prop :=
  ∃ inner, tree.Holds scope (.breakOut span) inner ∧ inner.breakable = false

/-- In its scope, the tree has a continue at the place that no loop takes in. -/
def HasFreeContinue (tree : Tree) (scope : Scope) (span : Span) : Prop :=
  ∃ inner, tree.Holds scope (.continueOn span) inner ∧ inner.inLoop = false

end Tree

/-- The signal of a node, and the one that the node ends with if nothing is checked: the former is
the latter, settled in the scope of the node. A break or continue stands as free as the node does,
and one that has failed is free. -/
inductive SettledFrom (root : Tree) (outer scope : Scope) : Signal → Signal → Prop where
  | breaks {value span inner} : root.Holds outer (.breakOut span) inner →
    inner.breakable = scope.breakable →
    SettledFrom root outer scope (scope.settle (.breaks value span)) (.breaks value span)
  | continues {span inner} : root.Holds outer (.continueOn span) inner →
    inner.inLoop = scope.inLoop →
    SettledFrom root outer scope (scope.settle (.continues span)) (.continues span)
  | returns value : SettledFrom root outer scope (.returns value) (.returns value)
  | overruns : SettledFrom root outer scope .overruns .overruns
  | fails {error} : error.fault ≠ .breakOutsideLoop → error.fault ≠ .continueOutsideLoop →
    SettledFrom root outer scope (.fails error) (.fails error)

namespace SettledFrom

variable {root : Tree} {outer scope : Scope} {e e' : Signal}

theorem eq_settle (h : SettledFrom root outer scope e e') : e = scope.settle e' := by
  cases h <;> rfl

theorem free_of_breaks {value : Option Float} {span : Span}
    (h : SettledFrom root outer scope e (.breaks value span)) :
    ∃ inner, root.Holds outer (.breakOut span) inner ∧ inner.breakable = scope.breakable := by
  cases h with
  | breaks held same => exact ⟨_, held, same⟩

theorem free_of_continues {span : Span} (h : SettledFrom root outer scope e (.continues span)) :
    ∃ inner, root.Holds outer (.continueOn span) inner ∧ inner.inLoop = scope.inLoop := by
  cases h with
  | continues held same => exact ⟨_, held, same⟩

/-- Only a free break fails as one that is out of place. -/
theorem hasFreeBreak {span : Span}
    (h : SettledFrom root outer scope (.failsAt .breakOutsideLoop span) e') :
    root.HasFreeBreak outer span := by
  generalize failed : Signal.failsAt .breakOutsideLoop span = e at h
  cases h with
  | @breaks value span' inner held same =>
    rw [Scope.settle] at failed
    split at failed
    next => cases failed
    next unowned =>
      cases failed
      exact ⟨inner, held, same.trans (Bool.eq_false_of_not_eq_true unowned)⟩
  | continues =>
    rw [Scope.settle] at failed
    split at failed <;> cases failed
  | returns | overruns => cases failed
  | fails not_break =>
    cases failed
    exact absurd rfl not_break

theorem hasFreeContinue {span : Span}
    (h : SettledFrom root outer scope (.failsAt .continueOutsideLoop span) e') :
    root.HasFreeContinue outer span := by
  generalize failed : Signal.failsAt .continueOutsideLoop span = e at h
  cases h with
  | breaks =>
    rw [Scope.settle] at failed
    split at failed <;> cases failed
  | @continues span' inner held same =>
    rw [Scope.settle] at failed
    split at failed
    next => cases failed
    next unowned =>
      cases failed
      exact ⟨inner, held, same.trans (Bool.eq_false_of_not_eq_true unowned)⟩
  | returns | overruns => cases failed
  | fails _ not_continue =>
    cases failed
    exact absurd rfl not_continue

private theorem carry (last : Option Float) (h : SettledFrom root outer scope e e') :
    SettledFrom root outer scope (e.carry last) (e'.carry last) := by
  cases h with
  | @breaks value span inner held same =>
    have settled : (scope.settle (.breaks value span)).carry last =
        scope.settle (.breaks (value.or last) span) := by
      rw [Scope.settle, Scope.settle]
      split <;> rfl
    rw [settled]
    exact .breaks held same
  | @continues span inner held same =>
    have settled :
        (scope.settle (.continues span)).carry last = scope.settle (.continues span) := by
      rw [Scope.settle]
      split <;> rfl
    rw [settled]
    exact .continues held same
  | returns value => exact .returns value
  | overruns => exact .overruns
  | fails not_break not_continue => exact .fails not_break not_continue

/-- In the body of a loop nothing is settled, and the loop takes in all breaks and continues. -/
private theorem lap (h : SettledFrom root outer scope.loopBody e e') :
    e.lap? = e'.lap? ∧ (e.lap? = none → SettledFrom root outer scope e e') := by
  cases h with
  | breaks | continues => exact ⟨rfl, nofun⟩
  | returns value => exact ⟨rfl, fun _ => .returns value⟩
  | overruns => exact ⟨rfl, fun _ => .overruns⟩
  | fails not_break not_continue => exact ⟨rfl, fun _ => .fails not_break not_continue⟩

/-- In the body of a switch, a continue belongs to whatever it belongs to around the switch. -/
private theorem left (h : SettledFrom root outer scope.switchBody e e') :
    e.left? = e'.left? ∧ (e.left? = none → SettledFrom root outer scope e e') := by
  cases h with
  | breaks => exact ⟨rfl, nofun⟩
  | @continues span inner held same =>
    refine ⟨?_, fun _ => .continues held same⟩
    rw [Scope.settle]
    split <;> rfl
  | returns value => exact ⟨rfl, fun _ => .returns value⟩
  | overruns => exact ⟨rfl, fun _ => .overruns⟩
  | fails not_break not_continue => exact ⟨rfl, fun _ => .fails not_break not_continue⟩

end SettledFrom

/-- Any node against its walk without checks. -/
private theorem settledLaws (registry : Registry) (setting : Setting) (root : Tree)
    (outer : Scope) : WalkLaws (.within setting (· = ·)) registry root outer
      (fun _ => .unchecked) (SettledFrom root outer) where
  other_loopBody _ := rfl
  other_switchBody _ := rfl
  agree _ _ hs := congrArg (Slots.slot? · _) hs
  write _ _ hs _ := congrArg (Slots.write · _ _) hs
  raises _ h := .fails h.in_place.1 h.in_place.2
  breakOut {span scope} held := by
    have settled : Run.breakOut scope span = throw (scope.settle (.breaks none span)) := by
      rw [Run.breakOut, Scope.settle]
      split <;> rfl
    rw [settled]
    exact .throw (.breaks held rfl)
  continueOn {span scope} held := by
    have settled : Run.continueOn scope span = throw (scope.settle (.continues span)) := by
      rw [Run.continueOn, Scope.settle]
      split <;> rfl
    rw [settled]
    exact .throw (.continues held rfl)
  returns _ value := .returns value
  overruns _ := .overruns
  carry last h := h.carry last
  lap h := h.lap
  left h := h.left

/-! ## Compiled nodes -/

/-- What a node that is compiled in a scope does with breaks and continues, run from some slots. -/
structure SignalsOwned (registry : Registry) (node : Tree) (scope : Scope) (code : Code)
    (setting : Setting) (slots : Slots) : Prop where
  /-- A break or continue that is reached acts on the run that takes in its signal. If there is none
  in the node and nothing around it either, it fails at its own place. -/
  eq_settleEnd : code setting slots = scope.settleEnd (node.walk registry .unchecked setting slots)
  no_break : scope.breakable = false →
    ∀ value span slots', code setting slots ≠ .error (.breaks value span) slots'
  no_continue : scope.inLoop = false →
    ∀ span slots', code setting slots ≠ .error (.continues span) slots'
  /-- A break that gets out of the node stands in no loop or switch body of the node. -/
  free_break : ∀ value span slots', code setting slots = .error (.breaks value span) slots' →
    node.HasFreeBreak .outermost span
  free_continue : ∀ span slots', code setting slots = .error (.continues span) slots' →
    node.HasFreeContinue .outermost span
  misplaced_break : ∀ span slots',
    code setting slots = .error (.failsAt .breakOutsideLoop span) slots' →
      node.HasFreeBreak scope span
  misplaced_continue : ∀ span slots',
    code setting slots = .error (.failsAt .continueOutsideLoop span) slots' →
      node.HasFreeContinue scope span
  /-- What fails for want of an owner when the node stands alone, gets out of it in its scope. -/
  alone : ∀ t c t', node.compile registry .outermost t = .ok (c, t') →
    c.code setting slots = Scope.outermost.settleEnd (code setting slots)

namespace Scope

theorem breakable_of_settle_eq_breaks {scope : Scope} {signal : Signal} {value : Option Float}
    {span : Span} (h : scope.settle signal = .breaks value span) :
    scope.breakable = true ∧ signal = .breaks value span := by
  cases signal with
  | breaks =>
    rw [settle] at h
    split at h
    · exact ⟨‹_›, h⟩
    · cases h
  | continues =>
    rw [settle] at h
    split at h <;> cases h
  | _ => cases h

theorem inLoop_of_settle_eq_continues {scope : Scope} {signal : Signal} {span : Span}
    (h : scope.settle signal = .continues span) :
    scope.inLoop = true ∧ signal = .continues span := by
  cases signal with
  | breaks =>
    rw [settle] at h
    split at h <;> cases h
  | continues =>
    rw [settle] at h
    split at h
    · exact ⟨‹_›, h⟩
    · cases h
  | _ => cases h

theorem outermost_settle_settle (scope : Scope) (signal : Signal) :
    outermost.settle (scope.settle signal) = outermost.settle signal := by
  cases signal with
  | breaks | continues =>
    rw [settle.eq_def scope]
    dsimp only
    split <;> rfl
  | _ => rfl

end Scope

variable {registry : Registry} {node : Tree} {scope : Scope} {t t' : Tally} {c : Compiled}

/-- The end of a node in its scope and its end without checks. -/
private theorem settled_ends (outer : Scope) (setting : Setting) (slots : Slots)
    (h : node.compile registry outer t = .ok (c, t')) :
    (∃ value slots', c.code setting slots = .ok value slots' ∧
        node.walk registry .unchecked setting slots = .ok value slots') ∨
      ∃ e e' slots', c.code setting slots = .error e slots' ∧
        node.walk registry .unchecked setting slots = .error e' slots' ∧
        SettledFrom node outer outer e e' := by
  have inStep := (settledLaws registry setting node outer).code_inStep .self h
  rcases inStep.ends (fun _ => id) rfl with ⟨value, slots', _, left, right, rfl⟩ |
    ⟨e, e', slots', _, left, right, settled, rfl⟩
  · exact .inl ⟨value, slots', left, right⟩
  · exact .inr ⟨e, e', slots', left, right, settled⟩

private theorem eq_settleEnd (setting : Setting) (slots : Slots)
    (h : node.compile registry scope t = .ok (c, t')) :
    c.code setting slots = scope.settleEnd (node.walk registry .unchecked setting slots) := by
  rcases settled_ends scope setting slots h with ⟨value, slots', left, right⟩ |
    ⟨e, e', slots', left, right, settled⟩
  · rw [left, right]
    rfl
  · rw [left, right, settled.eq_settle]
    rfl

/-- Where a break or continue stands that gets out of a node: nothing in the node owns it. -/
private theorem free_of_walk (setting : Setting) (slots : Slots) {signal : Signal} {slots' : Slots}
    (compiles : node.Compiles registry)
    (h : node.walk registry .unchecked setting slots = .error signal slots') :
    ∃ e, SettledFrom node .outermost .outermost e signal := by
  have inStep := (settledLaws registry setting node .outermost).inStep .self compiles
  rcases inStep.ends (fun _ => id) rfl with ⟨_, _, _, -, right, -⟩ |
    ⟨e, e', _, _, -, right, settled, -⟩
  · cases h.symm.trans right
  · cases h.symm.trans right
    exact ⟨e, settled⟩

theorem signalsOwned_of_compile (setting : Setting) (slots : Slots)
    (h : node.compile registry scope t = .ok (c, t')) :
    SignalsOwned registry node scope c.code setting slots := by
  have compiles : node.Compiles registry := ⟨scope, t, c, t', h⟩
  -- a signal that gets out in the scope is the one that gets out without checks
  have raw : ∀ {signal slots'}, c.code setting slots = .error signal slots' →
      ∃ signal', node.walk registry .unchecked setting slots = .error signal' slots' ∧
        SettledFrom node scope scope signal signal' := by
    intro signal slots' ended
    rcases settled_ends scope setting slots h with ⟨_, _, left, -⟩ |
      ⟨e, e', _, left, right, settled⟩
    · cases ended.symm.trans left
    · cases ended.symm.trans left
      exact ⟨e', right, settled⟩
  constructor
  case eq_settleEnd => exact eq_settleEnd setting slots h
  case no_break =>
    intro unbreakable value span slots' ended
    obtain ⟨_, -, settled⟩ := raw ended
    have breakable := (Scope.breakable_of_settle_eq_breaks settled.eq_settle.symm).1
    rw [unbreakable] at breakable
    cases breakable
  case no_continue =>
    intro not_inLoop span slots' ended
    obtain ⟨_, -, settled⟩ := raw ended
    have inLoop := (Scope.inLoop_of_settle_eq_continues settled.eq_settle.symm).1
    rw [not_inLoop] at inLoop
    cases inLoop
  case free_break =>
    intro value span slots' ended
    obtain ⟨_, walked, settled⟩ := raw ended
    rw [(Scope.breakable_of_settle_eq_breaks settled.eq_settle.symm).2] at walked
    obtain ⟨_, settled⟩ := free_of_walk setting slots compiles walked
    exact settled.free_of_breaks
  case free_continue =>
    intro span slots' ended
    obtain ⟨_, walked, settled⟩ := raw ended
    rw [(Scope.inLoop_of_settle_eq_continues settled.eq_settle.symm).2] at walked
    obtain ⟨_, settled⟩ := free_of_walk setting slots compiles walked
    exact settled.free_of_continues
  case misplaced_break =>
    intro span slots' ended
    obtain ⟨_, -, settled⟩ := raw ended
    exact settled.hasFreeBreak
  case misplaced_continue =>
    intro span slots' ended
    obtain ⟨_, -, settled⟩ := raw ended
    exact settled.hasFreeContinue
  case alone =>
    intro t₀ c₀ t₀' h₀
    rw [eq_settleEnd setting slots h₀, eq_settleEnd setting slots h]
    cases node.walk registry .unchecked setting slots with
    | ok value slots' => rfl
    | error signal slots' =>
      rw [Scope.settleEnd, Scope.settleEnd, Scope.settleEnd, Scope.outermost_settle_settle]

/-! ## Expressions -/

namespace Expression

/-- Signals never escape their owners. In an expression every node is compiled in the scope that it
stands in and does there what `SignalsOwned` says, from whatever slots it runs; so the run of the
whole expression never ends with a break or a continue. -/
theorem signals_owned {registry : Registry} {tree : Tree} {x : Expression}
    (compiled : compile registry tree = .ok x) (e : Environment) :
    (∀ node scope, tree.Holds .outermost node scope → node.CompilesIn registry scope ∧
      ∀ t c t', node.compile registry scope t = .ok (c, t') →
        ∀ slots, SignalsOwned registry node scope c.code e.setting slots) ∧
    (∀ slots, SignalsOwned registry tree .outermost x.code e.setting slots) ∧
    (∀ value span slots', x.code e.setting e.slots ≠ .error (.breaks value span) slots') ∧
    ∀ span slots', x.code e.setting e.slots ≠ .error (.continues span) slots' := by
  obtain ⟨c, t', h, rfl⟩ := compile_ok.mp compiled
  have root := fun slots => signalsOwned_of_compile e.setting slots h
  refine ⟨?_, root, (root e.slots).no_break rfl, (root e.slots).no_continue rfl⟩
  intro node scope held
  refine ⟨held.compilesIn ⟨_, _, _, h⟩, ?_⟩
  intro t c t' hnode slots
  exact signalsOwned_of_compile e.setting slots hnode

/-- The break in the condition of the inner loop leaves the outer loop. -/
theorem signals_owned_of_break_in_condition :
    let tree : Tree := .whileLoop ⟨0, 40⟩ (.literal ⟨1, 2⟩ "1") (.block ⟨3, 39⟩
      [.assign ⟨4, 7⟩ .assign (.ident ⟨4, 5⟩ "x") (.literal ⟨6, 7⟩ "1"),
        .whileLoop ⟨8, 20⟩ (.breakOut ⟨9, 14⟩) (.block ⟨15, 17⟩ []),
        .assign ⟨21, 24⟩ .assign (.ident ⟨21, 22⟩ "x") (.literal ⟨23, 24⟩ "2")])
    let e : Environment := .fresh (.empty 0) .never 0
    ∃ x, compile (.empty 0) tree = .ok x ∧
      (∀ slots, SignalsOwned (.empty 0) tree .outermost x.code e.setting slots) ∧
      (∀ value span slots', x.code e.setting e.slots ≠ .error (.breaks value span) slots') ∧
      ∀ span slots', x.code e.setting e.slots ≠ .error (.continues span) slots' := by
  intro tree e
  exact ⟨_, rfl, (signals_owned rfl e).2⟩

end Expression

end ShapeScript
