import ShapeScript.Proofs.Run.Sequence
import ShapeScript.Proofs.Compile.Parts
import ShapeScript.Proofs.Compile.Meaning

/-!
# A switch scans its labels

The code of a switch finds its way through a table of keys. It does what a scan does: it starts at
the first case, in source order, whose label the operator `==` finds equal to the scrutinee, and
falls through from there (`Tree.switch_scans`). A label that is NaN equals nothing, so no run starts
at its case, but a run that has started before goes through its body.
-/

namespace ShapeScript

open Run Compilation Compile

/-- A case as it is compiled: the number that its label folds to, and the code of its body. -/
structure FoldedCase where
  label : Float
  body : Code

namespace FoldedCase

/-- The operator `==` finds the label equal to a value. -/
def takes (v : Float) (case : FoldedCase) : Bool := truth (BinaryOp.equal.apply v case.label)

/-- The bodies from the first case on that takes a value. -/
def scan (v : Float) (cases : List FoldedCase) : List Code :=
  (cases.dropWhile fun case => !case.takes v).map (·.body)

theorem takes_eq (v : Float) (case : FoldedCase) : case.takes v = (v == case.label) := by
  rw [takes, BinaryOp.apply, ofBool]
  cases v == case.label <;> decide

/-- Dropping as many bodies as a comparison of the labels has skipped is scanning the cases. -/
theorem drop_select (v : Float) (cases : List FoldedCase) : ∃ skipped,
    Walk.select v (cases.map fun case => pure (some case.label)) = pure skipped ∧
      (cases.map (·.body)).drop skipped = scan v cases := by
  induction cases with
  | nil => exact ⟨0, rfl, rfl⟩
  | cons case rest ih =>
    rw [List.map_cons, Walk.select, pure_bind, Option.any_some, ← case.takes_eq v]
    cases taken : case.takes v with
    | true =>
      refine ⟨0, rfl, ?_⟩
      rw [List.drop_zero, scan, List.dropWhile_cons, taken]
      rfl
    | false =>
      obtain ⟨skipped, selects, drops⟩ := ih
      refine ⟨skipped + 1, ?_, ?_⟩
      · rw [selects, pure_bind]
        rfl
      · rw [List.map_cons, List.drop_succ_cons, drops, scan, scan, List.dropWhile_cons, taken]
        rfl

end FoldedCase

/-- With labels that have folded, a switch falls through the cases that the scan finds. -/
theorem Walk.switch_eq_fallThrough (scrutinee : Code) (span : Span) (cases : List FoldedCase)
    (fallback : Option Code) :
    Walk.switch scrutinee span (cases.map fun case => (pure (some case.label), case.body)) fallback =
      (required scrutinee span >>= fun v =>
        fallThrough (FoldedCase.scan v cases ++ fallback.toList) none) := by
  rw [Walk.switch]
  apply bind_congr
  intro v
  obtain ⟨skipped, selects, drops⟩ := FoldedCase.drop_select v cases
  rw [List.map_map, List.map_map]
  change (Walk.select v (cases.map fun case => pure (some case.label)) >>= fun skipped =>
    fallThrough ((cases.map (·.body)).drop skipped ++ fallback.toList) none) = _
  rw [selects, pure_bind, drops]

/-- The label of the arm folds to a number, and the body has this code. -/
inductive Arm.CompilesTo (registry : Registry) (scope : Scope) : Arm → FoldedCase → Prop where
  | mk {label body v c} : label.CompilesTo registry scope (.constant v) →
    body.CompilesTo registry scope c → CompilesTo registry scope ⟨label, body⟩ ⟨v, c.code⟩

section
variable {registry : Registry} {scope : Scope} {t t' : Tally}

/-- All labels have folded, and the walk of the arms is that of the folded cases. -/
theorem exists_cases_of_compileArms {position : Nat} {taken taken' : TakenCases} {arms : List Arm}
    {bodies : List Code}
    (h : compileArms registry scope position taken arms t = .ok ((taken', bodies), t')) :
    ∃ cases : List FoldedCase,
      List.Forall₂ (Arm.CompilesTo registry scope) arms cases ∧
      walkArms registry scope arms =
        cases.map fun case => (pure (some case.label), case.body) := by
  induction arms generalizing position taken bodies t with
  | nil => exact ⟨[], .nil, walkArms.eq_1 ..⟩
  | cons arm rest ih =>
    obtain ⟨label, body⟩ := arm
    obtain ⟨lc, _, v, _, bc, _, _, hlc, hlv, -, hbc, hrest, -⟩ := compileArms_cons_ok.mp h
    obtain ⟨cases, folded, walks⟩ := ih hrest
    have constant : lc = .constant v := by
      cases lc <;> cases hlv
      rfl
    rw [constant] at hlc
    have label_walk := label.code_of_compile (.refl registry) scope _ _ _ hlc
    have body_walk := body.code_of_compile (.refl registry) scope _ _ _ hbc
    refine ⟨⟨v, bc.code⟩ :: cases, .cons (.mk ⟨_, _, hlc⟩ ⟨_, _, hbc⟩) folded, ?_⟩
    rw [walkArms, ← label_walk, ← body_walk, walks, List.map_cons]
    rfl

end

/-- The code of a switch that compiles falls through the cases that the scan finds. -/
theorem Tree.exists_cases_of_compile {registry : Registry} {scope : Scope} {span : Span}
    {scrutinee : Tree} {arms : List Arm} {fallback : Option Tree} {t t' : Tally} {c : Compiled}
    (h : (Tree.switch span scrutinee arms fallback).compile registry scope t = .ok (c, t')) :
    ∃ (value : Compiled) (cases : List FoldedCase) (last : Option Compiled),
      scrutinee.CompilesTo registry scope value ∧
      List.Forall₂ (Arm.CompilesTo registry scope.switchBody) arms cases ∧
      Option.Rel (Tree.CompilesTo registry scope.switchBody) fallback last ∧
      ∀ setting slots v s, value.code setting slots = .ok (some v) s →
        c.code setting slots =
          fallThrough (FoldedCase.scan v cases ++ (last.map Compiled.code).toList) none setting s := by
  have walks := Tree.code_of_compile (.refl registry) _ scope _ _ _ h
  simp only [Tree.compile, bind_ok, pure_ok] at h
  obtain ⟨_, _, -, value, _, hvalue, ⟨taken, bodies⟩, _, harms, last, _, hlast, -, -⟩ := h
  obtain ⟨cases, folded, arms_walk⟩ := exists_cases_of_compileArms harms
  have value_walk := scrutinee.code_of_compile (.refl registry) scope _ _ _ hvalue
  have fallback_compiles : Option.Rel (Tree.CompilesTo registry scope.switchBody) fallback last := by
    rcases compileOptional_ok.mp hlast with ⟨rfl, rfl, -⟩ | ⟨tree, c, rfl, rfl, hc⟩
    · exact .none
    · exact .some ⟨_, _, hc⟩
  have fallback_walk :
      walkOptional registry scope.switchBody fallback = last.map Compiled.code := by
    rw [walkOptional_eq_map]
    cases fallback_compiles with
    | none => rfl
    | some h =>
      obtain ⟨_, _, h⟩ := h
      rw [Option.map_some, Option.map_some, Tree.code_of_compile (.refl registry) _ _ _ _ _ h]
  rw [Tree.walk, ← value_walk, arms_walk, fallback_walk, Walk.switch_eq_fallThrough] at walks
  refine ⟨value, cases, last, ⟨_, _, hvalue⟩, folded, fallback_compiles, ?_⟩
  intro setting slots v s run
  have required_run : required value.code scrutinee.span setting slots = .ok v s := by
    rw [required, bind_of_ok run]
    rfl
  rw [walks, bind_of_ok required_run]

/-- A switch that compiles scans its labels. A label is found if it is equal to the scrutinee; both
zeros are equal, and a NaN equals nothing. From the case that the scan finds on, bodies run in source
order, the fallback last. If no case is found, only the fallback runs. -/
theorem Tree.switch_scans {registry : Registry} {scope : Scope} {span : Span} {scrutinee : Tree}
    {arms : List Arm} {fallback : Option Tree} {t t' : Tally} {c : Compiled}
    (h : (Tree.switch span scrutinee arms fallback).compile registry scope t = .ok (c, t')) :
    ∃ (value : Compiled) (cases : List FoldedCase) (last : Option Compiled),
      scrutinee.CompilesTo registry scope value ∧
      List.Forall₂ (Arm.CompilesTo registry scope.switchBody) arms cases ∧
      Option.Rel (Tree.CompilesTo registry scope.switchBody) fallback last ∧
      (∀ case ∈ cases, ∀ v, case.takes v = true ↔
        (v == 0) = true ∧ (case.label == 0) = true ∨ v = case.label ∧ v.isNaN = false) ∧
      ∀ setting slots v s, value.code setting slots = .ok (some v) s →
        FallsThrough setting (FoldedCase.scan v cases ++ (last.map Compiled.code).toList) s
          (c.code setting slots) := by
  obtain ⟨value, cases, last, hvalue, folded, fallback_compiles, runs⟩ :=
    exists_cases_of_compile h
  refine ⟨value, cases, last, hvalue, folded, fallback_compiles, ?_, ?_⟩
  · intro case _ v
    rw [case.takes_eq, Binary64.beq_iff]
  · intro setting slots v s run
    rw [runs setting slots v s run]
    exact fallThrough_fallsThrough _ setting s

/-- The scrutinee is a negative zero. It passes the label that is NaN and is taken by the second
one; the break of the third body answers the value of the second. -/
theorem Tree.switch_scans_of_nan_label :
    let arms : List Arm :=
      [⟨.binary ⟨1, 4⟩ .div (.literal ⟨1, 2⟩ "0") (.literal ⟨3, 4⟩ "0"), .literal ⟨5, 6⟩ "1"⟩,
        ⟨.binary ⟨7, 10⟩ .sub (.literal ⟨7, 8⟩ "5") (.literal ⟨9, 10⟩ "5"), .literal ⟨11, 12⟩ "2"⟩,
        ⟨.literal ⟨13, 14⟩ "5", .breakOut ⟨15, 16⟩⟩]
    let scrutinee : Tree := .ident ⟨17, 18⟩ "x"
    let setting : Setting := ⟨.empty 0, 0, .never, 0⟩
    let slots : Slots := Slots.empty.write "x" (-0)
    ∃ c t', (Tree.switch ⟨0, 20⟩ scrutinee arms none).compile (.empty 0) .outermost .zero =
        .ok (c, t') ∧ (∃ s, c.code setting slots = .ok (some 2) s) ∧
      ∃ cases : List FoldedCase, List.Forall₂ (Arm.CompilesTo (.empty 0) ⟨false, true⟩) arms cases ∧
        FallsThrough setting (FoldedCase.scan (-0) cases) slots (c.code setting slots) := by
  intro arms scrutinee setting slots
  have value : ((Tree.switch ⟨0, 20⟩ scrutinee arms none).compile (.empty 0) .outermost .zero).map
      (fun r => (ended? (r.1.code setting slots)).map (·.1)) = .ok (some (some 2)) := by
    subst arms scrutinee setting slots
    decide +kernel
  cases compiled : (Tree.switch ⟨0, 20⟩ scrutinee arms none).compile (.empty 0) .outermost .zero with
  | error error =>
    rw [compiled] at value
    cases value
  | ok r =>
    obtain ⟨c, t'⟩ := r
    rw [compiled] at value
    obtain ⟨x, cases, last, ⟨_, _, hx⟩, folded, rel, -, runs⟩ := Tree.switch_scans compiled
    cases rel
    have negative_zero : x.code setting slots = .ok (some (-0)) slots := by
      cases hx
      rfl
    have ends := runs setting slots (-0) slots negative_zero
    rw [Option.map_none, Option.toList_none, List.append_nil] at ends
    refine ⟨c, t', rfl, ?_, cases, folded, ends⟩
    obtain ⟨⟨_, s⟩, run, rfl⟩ := Option.map_eq_some_iff.mp (Except.ok.inj value)
    exact ⟨s, ended?_eq_some_iff.mp run⟩

end ShapeScript
