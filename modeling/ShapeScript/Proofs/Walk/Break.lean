import Mathlib.Data.List.ReduceOption
import ShapeScript.Proofs.Walk.Switch

/-!
# What a break leaves with

A break that carries a value keeps it. Any other break takes what the statement or body right before
it has ended with (`Tree.break_takes_last_end`), and that is nothing if it has ended without a value.
The last value that was produced is lost then: `lastEnd_eq_lastValue_iff` says when the two differ,
and `Tree.break_loses_value` is a program where they do.
-/

namespace ShapeScript

open Run Compilation Compile

/-- What the last of some runs has ended with. -/
def lastEnd (ends : List (Option Float)) : Option Float := ends.getLast?.getD none

/-- The last value that some runs have produced. -/
def lastValue (ends : List (Option Float)) : Option Float := ends.reduceOption.getLast?

theorem lastEnd_concat (ends : List (Option Float)) (last : Option Float) :
    lastEnd (ends ++ [last]) = last := by
  rw [lastEnd, List.getLast?_concat, Option.getD_some]

theorem lastValue_concat (ends : List (Option Float)) (last : Option Float) :
    lastValue (ends ++ [last]) = last.or (lastValue ends) := by
  rw [lastValue, List.reduceOption_append, List.reduceOption_singleton, List.getLast?_append]
  cases last <;> rfl

theorem lastValue_eq_none_iff {ends : List (Option Float)} :
    lastValue ends = none ↔ ∀ value ∈ ends, value = none := by
  rw [lastValue, List.getLast?_eq_none_iff, List.reduceOption_eq_nil_iff]
  simp [List.eq_replicate_iff]

/-- The last run has produced the last value, unless it alone has not produced any. -/
theorem lastEnd_eq_lastValue_iff (ends : List (Option Float)) :
    lastEnd ends = lastValue ends ↔
      (lastEnd ends).isSome ∨ ∀ value ∈ ends, value = none := by
  rw [← lastValue_eq_none_iff]
  rcases List.eq_nil_or_concat ends with rfl | ⟨before, last, rfl⟩
  · simp [lastEnd, lastValue]
  · rw [List.concat_eq_append, lastEnd_concat, lastValue_concat]
    cases last with
    | none => simp [eq_comm]
    | some v => simp

/-- The tree compiles to this code. -/
def Tree.HasCode (registry : Registry) (scope : Scope) (tree : Tree) (code : Code) : Prop :=
  ∃ c, tree.CompilesTo registry scope c ∧ c.code = code

namespace Tree

variable {registry : Registry} {scope : Scope} {t t' : Tally} {c : Compiled}

theorem CompilesIn.hasCode {tree : Tree} (h : tree.CompilesIn registry scope) :
    tree.HasCode registry scope (tree.walk registry scope) := by
  obtain ⟨t, c, t', h⟩ := h
  exact ⟨c, ⟨t, t', h⟩, tree.code_of_compile (.refl registry) scope _ _ _ h⟩

/-- The code of a block runs those of all its statements, also of the ones that are left out. -/
theorem exists_codes_of_compile {span : Span} {stmts : List Tree}
    (h : (block span stmts).compile registry scope t = .ok (c, t')) :
    ∃ codes, List.Forall₂ (HasCode registry scope) stmts codes ∧ c.code = Run.block codes none := by
  have walks := code_of_compile (.refl registry) _ scope _ _ _ h
  rw [walk, walkStatements_eq_map] at walks
  refine ⟨_, ?_, walks⟩
  rw [List.forall₂_map_right_iff, List.forall₂_same]
  intro stmt mem
  have compiles : (block span stmts).CompilesIn registry scope := ⟨t, c, t', h⟩
  exact (compiles.part (List.mem_map_of_mem mem)).hasCode

/-- A break leaves a block, and a switch takes it in, with its own value or else with what the run
right before it has ended with. This is the last value produced exactly if that run has produced one
or none before it has. -/
theorem break_takes_last_end (registry : Registry) (scope : Scope) :
    (∀ span stmts t c t', (block span stmts).compile registry scope t = .ok (c, t') →
      ∃ codes, List.Forall₂ (HasCode registry scope) stmts codes ∧
        ∀ setting s ends own place s', Stops setting codes s ends (.breaks own place) s' →
          c.code setting s = .error (.breaks (own.or (lastEnd ends)) place) s') ∧
    (∀ span scrutinee arms fallback t c t',
      (switch span scrutinee arms fallback).compile registry scope t = .ok (c, t') →
      ∃ (value : Compiled) (cases : List FoldedCase) (last : Option Compiled),
        scrutinee.CompilesTo registry scope value ∧
        List.Forall₂ (Arm.CompilesTo registry scope.switchBody) arms cases ∧
        Option.Rel (Tree.CompilesTo registry scope.switchBody) fallback last ∧
        ∀ setting slots v s ends own place s', value.code setting slots = .ok (some v) s →
          Stops setting (FoldedCase.scan v cases ++ (last.map Compiled.code).toList) s ends
            (.breaks own place) s' →
          c.code setting slots = .ok (own.or (lastEnd ends)) s') ∧
    ∀ (own : Option Float) (ends : List (Option Float)),
      own.or (lastEnd ends) = own.or (lastValue ends) ↔
        own.isSome ∨ (lastEnd ends).isSome ∨ ∀ value ∈ ends, value = none := by
  refine ⟨?_, ?_, ?_⟩
  · intro span stmts t c t' h
    obtain ⟨codes, compiled, runs⟩ := exists_codes_of_compile h
    refine ⟨codes, compiled, fun setting s ends own place s' stops => ?_⟩
    rw [runs, block_of_stops stops]
    rfl
  · intro span scrutinee arms fallback t c t' h
    obtain ⟨value, cases, last, hvalue, folded, rel, runs⟩ := exists_cases_of_compile h
    refine ⟨value, cases, last, hvalue, folded, rel, ?_⟩
    intro setting slots v s ends own place s' run stops
    rw [runs setting slots v s run, fallThrough_of_stops stops]
    rfl
  · intro own ends
    cases own with
    | some v => simp
    | none => simpa using lastEnd_eq_lastValue_iff ends

/-! ## A value that is lost -/

/-- Produces five, then one if `x` is true, and breaks. -/
def guardedBreak : List Tree :=
  [.literal ⟨2, 3⟩ "5", .branch ⟨5, 6⟩ (.ident ⟨3, 4⟩ "x") (.literal ⟨4, 5⟩ "1") none,
    .breakOut ⟨6, 7⟩]

theorem HasCode.eq_walk {tree : Tree} {code : Code} (h : tree.HasCode registry scope code) :
    code = tree.walk registry scope := by
  obtain ⟨c, ⟨t, t', compiled⟩, rfl⟩ := h
  exact tree.code_of_compile (.refl registry) scope _ _ _ compiled

theorem codes_eq_map_walk {stmts : List Tree} {codes : List Code}
    (h : List.Forall₂ (HasCode registry scope) stmts codes) :
    codes = stmts.map (·.walk registry scope) := by
  induction h with
  | nil => rfl
  | cons first _ ih => rw [List.map_cons, ← first.eq_walk, ← ih]

theorem stops_guardedBreak (breakable : scope.breakable = true) {setting : Setting} {s : Slots}
    {v : Float} (bound : s.slot? "x" = some (.var v)) :
    Stops setting (guardedBreak.map (·.walk registry scope)) s
      [some 5, if truth v then some 1 else none] (.breaks none ⟨6, 7⟩) s := by
  have five : (literal ⟨2, 3⟩ "5").walk registry scope setting s = .ok (some 5) s := by
    rw [walk, show Literal.parse? "5" = some 5 by decide +kernel]
    rfl
  have one : (literal ⟨4, 5⟩ "1").walk registry scope setting s = .ok (some 1) s := by
    rw [walk, show Literal.parse? "1" = some 1 by decide +kernel]
    rfl
  have x : (ident ⟨3, 4⟩ "x").walk registry scope setting s = .ok (some v) s := by
    have reads : read "x" ⟨3, 4⟩ setting s = .ok v s := by
      rw [read_apply, bound]
      rfl
    rw [walk, bind_of_ok reads]
    rfl
  have test : condition ((ident ⟨3, 4⟩ "x").walk registry scope) ⟨3, 4⟩ setting s =
      .ok (truth v) s := by
    rw [condition, required, bind_of_ok (bind_of_ok x)]
    rfl
  have branched : (branch ⟨5, 6⟩ (.ident ⟨3, 4⟩ "x") (.literal ⟨4, 5⟩ "1") none).walk registry scope
      setting s = .ok (if truth v then some 1 else none) s := by
    rw [walk, Run.branch]
    refine (bind_of_ok test).trans ?_
    cases truth v with
    | true => exact one
    | false => rfl
  have leaves : (breakOut ⟨6, 7⟩).walk registry scope setting s =
      .error (.breaks none ⟨6, 7⟩) s := by
    rw [walk, Run.breakOut, if_pos breakable]
    rfl
  exact .later five (.later branched (.here leaves))

/-- With `x` true the break takes the one; the five before it is not the last value. -/
theorem break_takes_last_end_of_true_branch :
    let body : Tree := .block ⟨7, 8⟩ guardedBreak
    let setting : Setting := ⟨.empty 0, 0, .never, 0⟩
    let slots : Slots := Slots.empty.write "x" 1
    ∃ c t', body.compile (.empty 0) ⟨false, true⟩ .zero = .ok (c, t') ∧
      c.code setting slots = .error (.breaks (some 1) ⟨6, 7⟩) slots ∧
      lastValue [some 5, some 1] = some 1 := by
  intro body setting slots
  have compiles : (body.compile (.empty 0) ⟨false, true⟩ .zero).isOk = true := by
    subst body
    decide +kernel
  cases compiled : body.compile (.empty 0) ⟨false, true⟩ .zero with
  | error e =>
    rw [compiled] at compiles
    cases compiles
  | ok r =>
    obtain ⟨blocks, -, same_iff⟩ := break_takes_last_end (.empty 0) ⟨false, true⟩
    obtain ⟨codes, compiled_codes, breaks⟩ := blocks _ _ _ _ _ compiled
    have bound : slots.slot? "x" = some (.var 1) := (Slots.slot?_write ..).trans (if_pos rfl)
    have stops : Stops setting codes slots [some 5, some 1] (.breaks none ⟨6, 7⟩) slots := by
      rw [codes_eq_map_walk compiled_codes]
      exact stops_guardedBreak rfl bound
    have same := (same_iff none [some 5, some 1]).mpr (.inr (.inl rfl))
    exact ⟨r.1, r.2, rfl, breaks _ _ _ _ _ _ stops, same.symm⟩

/-- With `x` false the block has produced a five before it breaks, and the break leaves with nothing.
So the switch around it has no value. -/
theorem break_loses_value :
    let body : Tree := .block ⟨7, 8⟩ guardedBreak
    let tree : Tree := .switch ⟨8, 9⟩ (.literal ⟨0, 1⟩ "1") [⟨.literal ⟨1, 2⟩ "1", body⟩] none
    let e : Environment := ⟨Slots.empty.write "x" 0, ⟨.empty 0, 256, .never, 0⟩⟩
    (∃ ends, Stops e.setting (guardedBreak.map (·.walk (.empty 0) ⟨false, true⟩)) e.slots ends
      (.breaks none ⟨6, 7⟩) e.slots ∧ lastValue ends = some 5) ∧
    body.walk (.empty 0) ⟨false, true⟩ e.setting e.slots = .error (.breaks none ⟨6, 7⟩) e.slots ∧
    (Expression.compile (.empty 0) tree).map (fun x => (x.evaluate e).1) = .ok (.ok none) := by
  intro body tree e
  have bound : e.slots.slot? "x" = some (.var 0) := (Slots.slot?_write ..).trans (if_pos rfl)
  have stops : Stops e.setting (guardedBreak.map (·.walk (.empty 0) ⟨false, true⟩)) e.slots
      [some 5, none] (.breaks none ⟨6, 7⟩) e.slots := stops_guardedBreak rfl bound
  refine ⟨⟨_, stops, rfl⟩, ?_, ?_⟩
  · rw [walk, walkStatements_eq_map, block_of_stops stops]
    rfl
  · subst body tree e
    decide +kernel

end Tree
end ShapeScript
