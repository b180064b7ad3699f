import ShapeScript.Proofs.Expression.Frame
import ShapeScript.Proofs.Run.Counting

/-!
# Counted loops of a program

A counted loop that compiles computes its first bound, then its last one, each once, and from then
on it counts (`Tree.countedLoop_counts`). A body leaves the counter alone if no node of it writes
there (`Tree.NeverWrites.keeps`).
-/

namespace ShapeScript

open Run Compilation Compile

variable {registry : Registry} {scope : Scope} {t t' : Tally} {c : Compiled}

/-- The bounds of a counted loop are computed in their order; a bound that fails ends the loop, and
if none does, the loop counts. -/
inductive CountedLoop.Runs (l : CountedLoop) (first : Code) (firstSpan : Span) (last : Code)
    (lastSpan : Span) (setting : Setting) (slots : Slots) :
    EStateM.Result Signal Slots (Option Float) → Prop where
  | first {signal s} : required first firstSpan setting slots = .error signal s →
    Runs l first firstSpan last lastSpan setting slots (.error signal s)
  | last {low s signal s'} : required first firstSpan setting slots = .ok low s →
    required last lastSpan setting s = .error signal s' →
    Runs l first firstSpan last lastSpan setting slots (.error signal s')
  | counts {low s high s' result} : required first firstSpan setting slots = .ok low s →
    required last lastSpan setting s = .ok high s' →
    Counting.Counted ⟨l, setting, low, high, s'⟩ result →
    Runs l first firstSpan last lastSpan setting slots result

theorem runs_countedLoop (l : CountedLoop) (first : Code) (firstSpan : Span) (last : Code)
    (lastSpan : Span) (setting : Setting) (slots : Slots) :
    l.Runs first firstSpan last lastSpan setting slots
      ((Compile.countedLoop l first firstSpan last lastSpan).code setting slots) := by
  rw [Compile.countedLoop, Compiled.code]
  rcases low_run : required first firstSpan setting slots with ⟨low, s⟩ | ⟨signal, s⟩
  · rw [bind_of_ok low_run]
    rcases high_run : required last lastSpan setting s with ⟨high, s'⟩ | ⟨signal, s'⟩
    · rw [bind_of_ok high_run]
      exact .counts low_run high_run (Counting.counted_run ⟨l, setting, low, high, s'⟩)
    · rw [bind_of_error high_run]
      exact .last low_run high_run
  · rw [bind_of_error low_run]
    exact .first low_run

namespace Tree

/-- No node of the tree writes the variable. -/
def NeverWrites (registry : Registry) (scope : Scope) (tree : Tree) (var : String) : Prop :=
  ∀ {node inner how span}, tree.Holds scope node inner → ¬node.Writes registry how var span

theorem NeverWrites.keeps {tree : Tree} {var : String} (h : tree.NeverWrites registry scope var)
    (compiled : tree.CompilesTo registry scope c) (setting : Setting) :
    Keeps var c.code setting := by
  intro s
  obtain ⟨t, t', compiled⟩ := compiled
  have frame : Frame (fun _ name => name ≠ var) s (slotsAfter (c.code setting s)) := by
    refine tree.frame_of_compile compiled (fun held writes => ?_) setting s
    rintro rfl
    exact h held writes
  exact frame.untouched fun _ ne => ne rfl

/-- A counted loop that compiles computes its bounds once and counts bodies between them. Whatever a
body does, the next one finds the counter set to the next count; without a body, the loop has no
value and leaves the counter alone. Between integers the count is exact. -/
theorem countedLoop_counts {span : Span} {counter : String} {first last body : Tree}
    (h : (countedLoop span counter first last body).compile registry scope t = .ok (c, t')) :
    ∃ low high lap : Compiled,
      first.CompilesTo registry scope low ∧ last.CompilesTo registry scope high ∧
      body.CompilesTo registry scope.loopBody lap ∧
      (∀ setting slots, CountedLoop.Runs ⟨counter, lap.code, span⟩ low.code first.span high.code
        last.span setting slots (c.code setting slots)) ∧
      (body.NeverWrites registry scope.loopBody counter → ∀ setting first bound entry,
        Counting.Untouched ⟨⟨counter, lap.code, span⟩, setting, first, bound, entry⟩) := by
  simp only [Tree.compile, bind_ok, countNode_ok, touch_ok, pure_ok] at h
  obtain ⟨_, _, -, _, _, -, low, _, hlow, high, _, hhigh, lap, _, hlap, rfl, -⟩ := h
  refine ⟨low, high, lap, ⟨_, _, hlow⟩, ⟨_, _, hhigh⟩, ⟨_, _, hlap⟩, ?_, ?_⟩
  · intro setting slots
    exact runs_countedLoop _ _ _ _ _ setting slots
  · intro unwritten setting first bound entry
    exact Counting.untouched_of_keeps (unwritten.keeps ⟨_, _, hlap⟩ setting)

/-- The body writes to the counter and to the variable of the last bound; there are three bodies all
the same. -/
theorem countedLoop_counts_of_written_counter :
    let body : Tree := .block ⟨5, 14⟩
      [.assign ⟨6, 9⟩ .assign (.ident ⟨6, 7⟩ "n") (.literal ⟨8, 9⟩ "0"),
        .assign ⟨10, 13⟩ .assign (.ident ⟨10, 11⟩ "k") (.literal ⟨12, 13⟩ "9")]
    let tree : Tree := .countedLoop ⟨0, 14⟩ "k" (.literal ⟨1, 2⟩ "1") (.ident ⟨3, 4⟩ "n") body
    let setting : Setting := ⟨.empty 0, 3, .never, 0⟩
    let slots : Slots := Slots.empty.write "n" 3
    ∃ c t' lap s, tree.compile (.empty 0) .outermost .zero = .ok (c, t') ∧
      body.CompilesTo (.empty 0) (Scope.loopBody .outermost) lap ∧
      c.code setting slots = .ok (some 9) s ∧ s.slot? "k" = some (.var 9) ∧
      Counting.Counted ⟨⟨"k", lap.code, ⟨0, 14⟩⟩, setting, 1, 3, slots⟩ (c.code setting slots) ∧
      Counting.Between ⟨⟨"k", lap.code, ⟨0, 14⟩⟩, setting, 1, 3, slots⟩ 1 3 := by
  intro body tree setting slots
  have ends : (tree.compile (.empty 0) .outermost .zero).map
      (fun r => (ended? (r.1.code setting slots)).map fun r => (r.1, r.2.slot? "k")) =
        .ok (some (some 9, some (.var 9))) := by
    subst body tree setting slots
    decide +kernel
  cases compiled : tree.compile (.empty 0) .outermost .zero with
  | error error =>
    rw [compiled] at ends
    cases ends
  | ok r =>
    obtain ⟨c, t'⟩ := r
    rw [compiled] at ends
    obtain ⟨low, high, lap, ⟨_, _, hlow⟩, ⟨_, _, hhigh⟩, hlap, runs, -⟩ := countedLoop_counts compiled
    have low_run : required low.code ⟨1, 2⟩ setting slots = .ok 1 slots := by
      rw [Tree.code_of_compile (.refl _) _ _ _ _ _ hlow, Tree.walk,
        show Literal.parse? "1" = some 1 by decide +kernel]
      rfl
    have high_run : required high.code ⟨3, 4⟩ setting slots = .ok 3 slots := by
      have bound : slots.slot? "n" = some (.var 3) := (Slots.slot?_write ..).trans (if_pos rfl)
      have reads : read "n" ⟨3, 4⟩ setting slots = .ok 3 slots := by
        rw [read_apply, bound]
        rfl
      rw [Tree.code_of_compile (.refl _) _ _ _ _ _ hhigh, Tree.walk, required,
        bind_of_ok (bind_of_ok reads)]
      rfl
    have counted : Counting.Counted ⟨⟨"k", lap.code, ⟨0, 14⟩⟩, setting, 1, 3, slots⟩
        (c.code setting slots) := by
      have run := runs setting slots
      generalize c.code setting slots = result at run ⊢
      cases run with
      | first fails => cases low_run.symm.trans fails
      | last low_run' fails =>
        cases low_run.symm.trans low_run'
        cases high_run.symm.trans fails
      | counts low_run' high_run' counted =>
        cases low_run.symm.trans low_run'
        cases high_run.symm.trans high_run'
        exact counted
    obtain ⟨⟨_, s⟩, run, same⟩ := Option.map_eq_some_iff.mp (Except.ok.inj ends)
    obtain ⟨rfl, held⟩ := Prod.mk.inj same
    have one : ((1 : Float) == Binary64.ofInt 1) = true := by decide +kernel
    have three : ((3 : Float) == Binary64.ofInt 3) = true := by decide +kernel
    exact ⟨c, t', lap, s, rfl, hlap, ended?_eq_some_iff.mp run, held, counted,
      ⟨by decide, by decide, one, three⟩⟩

end Tree
end ShapeScript
