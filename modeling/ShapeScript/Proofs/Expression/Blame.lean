import ShapeScript.Proofs.Walk.Ownership

/-!
# A failed evaluation blames a node

Each fault of a run has its kind of node (`Tree.Blames`), and the place of an error is that of such
a node of the tree. Along a run this is a property of signals: a node raises a fault with a place of
its own (`Tree.Raises`), and whatever a failure passes on its way out leaves it as it is. Whoever
resolved a call has found the function in the registry, so no run meets a number without a function.
-/

namespace ShapeScript

/-- The node of the tree explains the fault of a run with a ceiling of iterations. -/
inductive Tree.Blames (registry : Registry) (ceiling : Nat) (root : Tree) :
    RunFault → Tree → Prop where
  | uninitialized {span var scope} : root.Holds .outermost (.ident span var) scope →
    Blames registry ceiling root (.uninitializedVariable var) (.ident span var)
  | target {node scope span var} : root.Holds .outermost node scope →
    .ident span var ∈ node.targets registry →
    Blames registry ceiling root (.constantReassignment var) (.ident span var)
  | counter {span var first last body scope} :
    root.Holds .outermost (.countedLoop span var first last body) scope →
    Blames registry ceiling root (.constantReassignment var) (.countedLoop span var first last body)
  | noValue {node scope operand} : root.Holds .outermost node scope →
    operand ∈ node.operands registry → Blames registry ceiling root .noValue operand
  | failed {span function args scope message} :
    root.Holds .outermost (.call span function args) scope →
    Blames registry ceiling root (.functionFailed function message) (.call span function args)
  | breakOut {span scope} : root.Holds .outermost (.breakOut span) scope →
    scope.breakable = false → Blames registry ceiling root .breakOutsideLoop (.breakOut span)
  | continueOn {span scope} : root.Holds .outermost (.continueOn span) scope →
    scope.inLoop = false → Blames registry ceiling root .continueOutsideLoop (.continueOn span)
  | timeout {loop scope} : root.Holds .outermost loop scope → loop.isLoop = true →
    Blames registry ceiling root .timeout loop
  | iterationLimit {loop scope} : root.Holds .outermost loop scope → loop.isLoop = true →
    Blames registry ceiling root (.iterationLimit ceiling) loop

namespace Tree

variable {registry : Registry} {setting : Setting} {root node : Tree} {scope : Scope}
  {fault : RunFault} {span : Span}

/-- What is blamed is a node of the tree. -/
theorem Blames.holds {ceiling : Nat} (h : root.Blames registry ceiling fault node) :
    ∃ scope, root.Holds .outermost node scope := by
  cases h with
  | target held mem => exact ⟨_, held.part_of (mem_parts_of_mem_targets mem _)⟩
  | noValue held mem => exact ⟨_, held.part_of (mem_parts_of_mem_operands mem _)⟩
  | uninitialized held | counter held | failed held | breakOut held _ | continueOn held _
  | timeout held _ | iterationLimit held _ => exact ⟨_, held⟩

/-- Calls that resolve have a function, so whatever a node raises, some node explains. -/
theorem Raises.blames (known : ∀ name arity id, registry.resolve? name arity = some id →
      setting.registry.function? id ≠ none)
    (held : root.Holds .outermost node scope) (h : node.Raises registry setting fault span) :
    ∃ blamed, root.Blames registry setting.ceiling fault blamed ∧ blamed.span = span := by
  cases h with
  | unset => exact ⟨_, .uninitialized held, rfl⟩
  | @unsetTarget _ var _ writes =>
    rcases writes.mem_targets with mem | ⟨_, _, _, rfl⟩
    · exact ⟨.ident span var, .uninitialized (held.part_of (mem_parts_of_mem_targets mem _)), rfl⟩
    · cases writes
  | @constant _ _ var _ writes =>
    rcases writes.mem_targets with mem | ⟨first, last, body, rfl⟩
    · exact ⟨.ident span var, .target held mem, rfl⟩
    · exact ⟨_, .counter held, rfl⟩
  | noValue mem => exact ⟨_, .noValue held mem, rfl⟩
  | failed => exact ⟨_, .failed held, rfl⟩
  | mismatch resolved unknown => exact absurd unknown (known _ _ _ resolved)
  | timeout loop => exact ⟨_, .timeout held loop, rfl⟩
  | limit loop => exact ⟨_, .iterationLimit held loop, rfl⟩

end Tree

/-- If the signal is a failure, its place is that of a node that explains it. -/
def Signal.Explained (registry : Registry) (ceiling : Nat) (root : Tree) : Signal → Prop
  | .fails error =>
    ∃ node, root.Blames registry ceiling error.fault node ∧ error.span? = some node.span
  | _ => True

/-- A node in step with itself, all of whose failures are explained. -/
private theorem explainedLaws {registry : Registry} {setting : Setting} (root : Tree)
    (known : ∀ name arity id, registry.resolve? name arity = some id →
      setting.registry.function? id ≠ none) :
    WalkLaws (.within setting (· = ·)) registry root .outermost id
      (fun _ e e' => e = e' ∧ e.Explained registry setting.ceiling root) where
  other_loopBody _ := rfl
  other_switchBody _ := rfl
  agree _ _ hs := congrArg (Slots.slot? · _) hs
  write _ _ hs _ := congrArg (Slots.write · _ _) hs
  raises held h := by
    obtain ⟨node, blames, rfl⟩ := h.blames known held
    exact ⟨rfl, node, blames, rfl⟩
  breakOut {span scope} held := by
    rw [id_eq, Run.breakOut]
    split
    next => exact .throw ⟨rfl, trivial⟩
    next unowned =>
      exact .failAt ⟨rfl, _, .breakOut held (Bool.eq_false_of_not_eq_true unowned), rfl⟩
  continueOn {span scope} held := by
    rw [id_eq, Run.continueOn]
    split
    next => exact .throw ⟨rfl, trivial⟩
    next unowned =>
      exact .failAt ⟨rfl, _, .continueOn held (Bool.eq_false_of_not_eq_true unowned), rfl⟩
  returns _ _ := ⟨rfl, trivial⟩
  overruns _ := ⟨rfl, trivial⟩
  carry {_ e e'} last h := by
    refine ⟨congrArg (Signal.carry last) h.1, ?_⟩
    cases e with
    | fails => exact h.2
    | _ => trivial
  lap h := ⟨congrArg Signal.lap? h.1, fun _ => h⟩
  left h := ⟨congrArg Signal.left? h.1, fun _ => h⟩

namespace Tree

/-- The function of a call in a tree that compiles. -/
theorem Compiles.resolve? {registry : Registry} {span : Span} {function : String} {args : List Tree}
    (h : (Tree.call span function args).Compiles registry) :
    ∃ id f, registry.resolve? function args.length = some id ∧ registry.function? id = some f := by
  obtain ⟨_, _, _, _, h⟩ := h
  simp only [compile, Compilation.bind_ok] at h
  obtain ⟨_, _, -, ⟨id, params⟩, _, hcallee, -⟩ := h
  obtain ⟨resolved, -, -⟩ := Compile.callee_ok.mp hcallee
  obtain ⟨f, found, -⟩ := Registry.exists_function?_of_resolve? resolved
  exact ⟨id, f, resolved, found⟩

end Tree

namespace Expression

variable {registry : Registry} {tree : Tree} {x : Expression}

/-- An error of an evaluation is the failure of the run: no break or continue is left over. -/
theorem fails_of_runIn_eq_error (compiled : compile registry tree = .ok x) {e : Environment}
    {error : RunError} (failed : (runIn e x.code).1 = .error (.error error)) :
    ∃ slots, x.code e.setting e.slots = .error (.fails error) slots := by
  obtain ⟨c, t', h, rfl⟩ := compile_ok.mp compiled
  have owned := signalsOwned_of_compile e.setting e.slots h
  rw [runIn] at failed
  split at failed
  next => cases failed
  next signal slots ended =>
    cases signal with
    | fails =>
      cases failed
      exact ⟨slots, ended⟩
    | breaks => exact absurd ended (owned.no_break rfl _ _ _)
    | continues => exact absurd ended (owned.no_continue rfl _ _)
    | returns | overruns => cases failed

/-- Every error of an evaluation names the node that caused it. In an environment on the registry of
the expression, an error has the place of a node that explains its fault; and every call of the tree
finds its function, so that a mismatch of registries is never met. -/
theorem blames_of_evaluate (compiled : compile registry tree = .ok x) (e : Environment)
    (grown : registry.Extends e.setting.registry) :
    (∀ error, (x.evaluate e).1 = .error (.error error) → error.fault ≠ .registryMismatch ∧
      ∃ node scope, tree.Holds .outermost node scope ∧
        tree.Blames registry e.setting.ceiling error.fault node ∧
        error.span? = some node.span) ∧
    ∀ span function args scope, tree.Holds .outermost (.call span function args) scope →
      ∃ id f, registry.resolve? function args.length = some id ∧
        e.setting.registry.function? id = some f := by
  have known : ∀ name arity id, registry.resolve? name arity = some id →
      e.setting.registry.function? id ≠ none := by
    intro name arity id resolved unknown
    obtain ⟨f, found, -⟩ := Registry.exists_function?_of_resolve? resolved
    cases unknown.symm.trans (grown.function? found)
  constructor
  · intro error failed
    have same_registry : e.setting.registry.identity = x.registry := by
      rw [registry_eq compiled, grown.identity]
    rw [evaluate, if_neg (not_not_intro same_registry)] at failed
    obtain ⟨slots, ended⟩ := fails_of_runIn_eq_error compiled failed
    have inStep := code_inStep compiled (explainedLaws tree known)
    rcases inStep.ends (fun _ => id) (s := e.slots) rfl with ⟨_, _, _, ended', -⟩ |
      ⟨signal, _, _, _, ended', -, ⟨-, explained⟩, -⟩
    · cases ended.symm.trans ended'
    · cases ended.symm.trans ended'
      obtain ⟨node, blames, place⟩ := explained
      obtain ⟨scope, held⟩ := blames.holds
      refine ⟨?_, node, scope, held, blames, place⟩
      intro mismatch
      rw [mismatch] at blames
      cases blames
  · intro span function args scope held
    obtain ⟨c, t', h, -⟩ := compile_ok.mp compiled
    obtain ⟨id, f, resolved, found⟩ := Tree.Compiles.resolve? ⟨_, held.compilesIn ⟨_, _, _, h⟩⟩
    exact ⟨id, f, resolved, grown.function? found⟩

/-- The body fails at its second statement, which adds to a constant. -/
theorem blames_of_evaluate_of_constant :
    let tree : Tree := .whileLoop ⟨0, 30⟩ (.literal ⟨7, 8⟩ "1") (.block ⟨10, 29⟩
      [.assign ⟨12, 17⟩ .assign (.ident ⟨12, 13⟩ "x") (.literal ⟨16, 17⟩ "2"),
        .assign ⟨19, 25⟩ .add (.ident ⟨19, 20⟩ "c") (.ident ⟨24, 25⟩ "x")])
    let e : Environment := (Environment.fresh (.empty 0) .never 0).define "c" 2
    ∃ x error, compile (.empty 0) tree = .ok x ∧ (x.evaluate e).1 = .error (.error error) ∧
      error = ⟨.constantReassignment "c", some ⟨19, 20⟩⟩ ∧
      ∃ node scope, tree.Holds .outermost node scope ∧
        tree.Blames (.empty 0) e.setting.ceiling error.fault node ∧
        error.span? = some node.span := by
  intro tree e
  obtain ⟨x, compiled⟩ : ∃ x, compile (.empty 0) tree = .ok x := ⟨_, rfl⟩
  have run : (compile (.empty 0) tree).map (fun x => (x.evaluate e).1) =
      .ok (.error (.error ⟨.constantReassignment "c", some ⟨19, 20⟩⟩)) := by
    subst e tree
    decide +kernel
  rw [compiled] at run
  have failed := Except.ok.inj run
  exact ⟨x, _, compiled, failed, rfl, ((blames_of_evaluate compiled e (.refl _)).1 _ failed).2⟩

end Expression
end ShapeScript
