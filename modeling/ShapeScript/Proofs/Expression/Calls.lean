import ShapeScript.Proofs.Run.Calls
import ShapeScript.Proofs.Run.Sequence
import ShapeScript.Proofs.Expression.Frame

/-!
# Calls of natives are atomic

A call site compiles to a call whose arguments are passed as the parameters of the function say
(`Tree.PassedAs`). The code of its arguments creates no constants (`Tree.constantsStay`), so a call
either leaves the slots that the function was called in, or writes back all that it has to
(`Expression.calls_atomic`).
-/

namespace ShapeScript

open Run Compilation Compile

/-- What an argument is passed as, by the kind of its parameter. -/
inductive Tree.PassedAs (registry : Registry) (scope : Scope) :
    Tree × ParamKind → Argument → Prop where
  | value {arg c} : arg.CompilesTo registry scope c →
    PassedAs registry scope (arg, .value) (.value c.code arg.span)
  | reference {span var} : PassedAs registry scope (.ident span var, .reference)
    (.reference var span)

section
variable {registry : Registry} {scope : Scope} {t t' : Tally}

theorem passedAs_of_compileArguments {function : String} {position : Nat} {args : List Tree}
    {params : List ParamKind} {passed : List Argument}
    (h : compileArguments registry scope function position args params t = .ok (passed, t')) :
    List.Forall₂ (Tree.PassedAs registry scope) (args.zip params) passed := by
  induction args generalizing position params passed t t' with
  | nil =>
    simp only [compileArguments, pure_ok] at h
    rw [← h.1]
    exact .nil
  | cons arg rest ih =>
    cases params with
    | nil =>
      simp only [compileArguments, pure_ok] at h
      rw [← h.1]
      exact .nil
    | cons kind params =>
      cases kind with
      | value =>
        simp only [compileArguments, bind_ok, pure_ok] at h
        obtain ⟨c, _, hc, more, _, hmore, rfl, -⟩ := h
        exact .cons (.value ⟨_, _, hc⟩) (ih hmore)
      | reference =>
        rw [compileArguments] at h
        cases named : arg.var? with
        | none => simp only [named, refuse_ok] at h
        | some var =>
          simp only [named, bind_ok, pure_ok] at h
          obtain ⟨_, _, -, _, _, -, more, _, hmore, rfl, -⟩ := h
          rw [Tree.eq_ident_of_var? named]
          exact .cons .reference (ih hmore)

/-- No script turns a variable into a constant, or makes a new one. -/
theorem Tree.constantsStay {tree : Tree} {c : Compiled} (h : tree.CompilesTo registry scope c)
    (setting : Setting) : ConstantsStay setting c.code := by
  obtain ⟨t, t', h⟩ := h
  intro s s' ended name v held
  have frame : Frame (fun _ _ => True) s (slotsAfter (c.code setting s)) :=
    tree.frame_of_compile h (fun _ _ => trivial) setting s
  rcases ended with ⟨value, run⟩ | ⟨signal, run⟩
  · rw [run] at frame
    exact frame.constant_before held
  · rw [run] at frame
    exact frame.constant_before held

theorem constantsStay_of_passedAs {pairs : List (Tree × ParamKind)} {passed : List Argument}
    (h : List.Forall₂ (Tree.PassedAs registry scope) pairs passed) (setting : Setting) :
    ∀ code span, .value code span ∈ passed → ConstantsStay setting code := by
  induction h with
  | nil => nofun
  | cons first _ ih =>
    intro code span mem
    rcases List.mem_cons.mp mem with rfl | behind
    · cases first with
      | value compiles => exact Tree.constantsStay compiles setting
    · exact ih code span behind

end

namespace Expression

/-- Calls of natives are atomic. A call site passes its arguments, in order, as the parameters of
the function say, and ends as `CallOutcome` tells, in every setting on the registry. If an
evaluation comes to the call and the function fails, then the evaluation fails with that failure
and leaves the slots that the function was called in. -/
theorem calls_atomic {registry : Registry} {scope : Scope} {span : Span} {function : String}
    {args : List Tree} {c : Compiled}
    (compiles : (Tree.call span function args).CompilesTo registry scope c) {setting : Setting}
    (grown : registry.Extends setting.registry) :
    ∃ id f passed, registry.resolve? function args.length = some id ∧
      registry.function? id = some f ∧ f.params.length = args.length ∧
      List.Forall₂ (Tree.PassedAs registry scope) (args.zip f.params) passed ∧
      (f.KeepsLength →
        ∀ s, CallOutcome f function passed span setting s (c.code setting s)) ∧
      ∀ tree x e s s' values message, compile registry tree = .ok x → e.setting = setting →
        Reaches setting c.code s x.code e.slots → Taken setting passed s values s' →
        (f.run values).result = .failed message →
        x.evaluate e =
          (.error (.error ⟨.functionFailed function message, some span⟩), e.withSlots s') := by
  obtain ⟨t, t', h⟩ := compiles
  simp only [Tree.compile, bind_ok, pure_ok] at h
  obtain ⟨_, _, -, ⟨id, params⟩, _, hcallee, passed, _, harguments, rfl, -⟩ := h
  obtain ⟨resolved, rfl, -⟩ := callee_ok.mp hcallee
  obtain ⟨f, found, arity⟩ := Registry.exists_function?_of_resolve? resolved
  have params : registry.params id = f.params := by
    rw [Registry.params, found]
    rfl
  have passedAs := passedAs_of_compileArguments harguments
  have stay := constantsStay_of_passedAs passedAs setting
  have found' := grown.function? found
  refine ⟨id, f, passed, resolved, found, arity, params ▸ passedAs, ?_, ?_⟩
  · intro keeps s
    exact call_outcome found' keeps stay function span s
  · intro tree x e s s' values message compiled same reaches taken failed
    have fails : call id function passed span setting s =
        .error (.failsAt (.functionFailed function message) span) s' := by
      rw [call_of_taken found' taken, failed]
      rfl
    have run := reaches.error rfl fails
    have same_registry : e.setting.registry.identity = x.registry := by
      rw [registry_eq compiled, same, grown.identity]
    rw [evaluate, if_neg (not_not_intro same_registry), runIn, same, run]
    rfl

/-- An assignment of a literal, where the variable is free. -/
private theorem walk_assign_literal {registry : Registry} {scope : Scope} {span target place : Span}
    {var text : String} {v : Float} (parsed : Literal.parse? text = some v) (setting : Setting)
    {s : Slots} (free : s.slot? var = none) :
    (Tree.assign span .assign (.ident target var) (.literal place text)).walk registry scope setting
      s = .ok (some v) (s.write var v) := by
  have assigned : assign var target v setting s = .ok () (s.write var v) := by
    rw [assign_apply, free]
  rw [Tree.walk, Tree.var?, Tree.walk, parsed]
  exact bind_of_ok assigned

/-- The function spoils its whole buffer and fails. The variable is passed by reference on both
sides of an assignment to it, which is all that is left. -/
theorem calls_atomic_of_spoiled_buffer :
    let spoil : HostFunction :=
      ⟨"spoil", [.reference, .value, .reference], fun values => ⟨.failed "no", values.map (· + 1)⟩⟩
    let registry := ((Registry.empty 0).insert spoil).2
    let tree : Tree := .block ⟨0, 30⟩ [.assign ⟨1, 4⟩ .assign (.ident ⟨1, 2⟩ "y") (.literal ⟨3, 4⟩ "2"),
      .call ⟨5, 20⟩ "spoil" [.ident ⟨6, 7⟩ "x",
        .assign ⟨8, 13⟩ .assign (.ident ⟨8, 9⟩ "x") (.literal ⟨12, 13⟩ "5"), .ident ⟨14, 15⟩ "x"]]
    let e : Environment := .fresh registry .never 0
    spoil.KeepsLength ∧ ∃ x s, compile registry tree = .ok x ∧
      x.evaluate e = (.error (.error ⟨.functionFailed "spoil" "no", some ⟨5, 20⟩⟩), e.withSlots s) ∧
      s.slot? "x" = some (.var 5) := by
  intro spoil registry tree e
  have keeps : spoil.KeepsLength := fun values => List.length_map ..
  have grown : registry.Extends e.setting.registry := .refl registry
  have accepted : (compile registry tree).isOk = true := by
    subst e tree registry spoil
    decide +kernel
  have resolves : registry.resolve? "spoil" 3 = some ⟨0⟩ := by
    subst e tree registry spoil
    decide +kernel
  have two : Literal.parse? "2" = some 2 := by decide +kernel
  have five : Literal.parse? "5" = some 5 := by decide +kernel
  obtain ⟨x, compiled⟩ : ∃ x, compile registry tree = .ok x := by
    cases h : compile registry tree with
    | ok x => exact ⟨x, rfl⟩
    | error error =>
      rw [h] at accepted
      cases accepted
  obtain ⟨_, _, h, -⟩ := compile_ok.mp compiled
  have whole : tree.CompilesIn registry .outermost := ⟨_, _, _, h⟩
  obtain ⟨t, c, t', site⟩ := whole.part (.tail _ (.head _))
  have site_walk := Tree.code_of_compile (.refl registry) _ _ _ _ _ site
  obtain ⟨id, f, passed, resolved, found, -, passedAs, -, fails⟩ := calls_atomic ⟨_, _, site⟩ grown
  cases resolves.symm.trans resolved
  cases found
  -- the arguments are a variable, the code of the assignment and the variable again
  cases passedAs with | cons first rest =>
  cases first
  cases rest with | cons second rest =>
  cases second with | @value _ value assigned =>
  cases rest with | cons third rest =>
  cases third
  cases rest
  obtain ⟨_, _, assigned⟩ := assigned
  have assigned_walk := Tree.code_of_compile (.refl registry) _ _ _ _ _ assigned
  let before := Slots.empty.write "y" 2
  let after := before.write "x" 5
  have unbound : before.slot? "x" = none := by simp [before, Slots.slot?_write]
  have held : after.slot? "x" = some (.var 5) := by simp [after, Slots.slot?_write]
  have assign_run : value.code e.setting before = .ok (some 5) after := by
    rw [assigned_walk]
    exact walk_assign_literal five e.setting unbound
  have reaches : Reaches e.setting c.code before x.code e.slots := by
    rw [code_eq_walk compiled (.refl registry), Tree.walk, walkStatements, walkStatements, site_walk]
    exact .blockTail (walk_assign_literal two e.setting (Slots.slot?_empty "y")) (.blockHead .self)
  refine ⟨keeps, x, after, compiled, ?_, held⟩
  apply fails tree x e before after [0, 5, 5] _ compiled rfl reaches ?_ rfl
  exact .reference (.unbound unbound) (.value assign_run (.reference (.held held) .nil))

end Expression

end ShapeScript
