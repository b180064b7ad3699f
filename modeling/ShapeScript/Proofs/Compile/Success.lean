import ShapeScript.Expression

/-!
# What a step of compiling has done when it succeeds

One equation for each way to put compilations together and for each check: it succeeds exactly if
its parts do, with this result and this tally. Rewriting with them turns a successful compilation
of a node into those of its parts.
-/

namespace ShapeScript

namespace Tally

/-- The tally with one more node. -/
def addNode (t : Tally) : Tally := ⟨t.nodes + 1, t.vars⟩

/-- The tally with one more variable. -/
def addVar (t : Tally) (var : String) : Tally := ⟨t.nodes, t.vars.insert var⟩

end Tally

namespace Compilation

variable {α β : Type} {t t' : Tally}

theorem bind_ok {m : Compilation α} {f : α → Compilation β} {b : β} :
    (m >>= f) t = .ok (b, t') ↔ ∃ a t₁, m t = .ok (a, t₁) ∧ f a t₁ = .ok (b, t') := by
  change (m t >>= fun (a, t₁) => f a t₁) = _ ↔ _
  cases m t with
  | ok r =>
    obtain ⟨a, t₁⟩ := r
    constructor
    · exact fun h => ⟨a, t₁, rfl, h⟩
    · rintro ⟨_, _, h, h'⟩
      cases h
      exact h'
  | error e =>
    constructor
    · nofun
    · rintro ⟨_, _, h, _⟩
      cases h

theorem pure_ok {a b : α} : (pure a : Compilation α) t = .ok (b, t') ↔ a = b ∧ t = t' := by
  change Except.ok (a, t) = .ok (b, t') ↔ _
  simp

theorem countNode_ok {u : Unit} : countNode t = .ok (u, t') ↔ t.addNode = t' := by
  change Except.ok ((), t.addNode) = .ok (u, t') ↔ _
  simp

theorem touch_ok {var : String} {u : Unit} : touch var t = .ok (u, t') ↔ t.addVar var = t' := by
  change Except.ok ((), t.addVar var) = .ok (u, t') ↔ _
  simp

theorem refuse_ok {fault : CompileFault} {span : Span} {notes : List Note} {a : α} :
    refuse fault span notes t = .ok (a, t') ↔ False := by
  change Except.error _ = .ok (a, t') ↔ _
  simp

end Compilation

open Compilation

namespace Compile

variable {registry : Registry} {t t' : Tally}

theorem target_ok {symbol : String} {tree : Tree} {var : String} :
    target symbol tree t = .ok (var, t') ↔ tree.var? = some var ∧ t.addNode.addVar var = t' := by
  rw [target]
  cases h : tree.var? with
  | none => simp [refuse_ok]
  | some name =>
    simp only [bind_ok, countNode_ok, touch_ok, pure_ok, Option.some.injEq]
    constructor
    · rintro ⟨_, _, rfl, _, _, rfl, rfl, rfl⟩
      exact ⟨rfl, rfl⟩
    · rintro ⟨rfl, rfl⟩
      exact ⟨(), _, rfl, (), _, rfl, rfl, rfl⟩

theorem callee_ok {name : String} {arity : Nat} {span : Span} {id : FunctionId}
    {params : List ParamKind} :
    callee registry name arity span t = .ok ((id, params), t') ↔
      registry.resolve? name arity = some id ∧ registry.params id = params ∧ t = t' := by
  rw [callee]
  cases registry.resolve? name arity with
  | none => simp [refuse_ok]
  | some id' =>
    simp only [pure_ok, Prod.mk.injEq, Option.some.injEq]
    constructor
    · rintro ⟨⟨rfl, rfl⟩, rfl⟩
      exact ⟨rfl, rfl, rfl⟩
    · rintro ⟨rfl, rfl, rfl⟩
      exact ⟨⟨rfl, rfl⟩, rfl⟩

theorem labelValue_ok {label : Compiled} {span : Span} {v : Float} :
    labelValue label span t = .ok (v, t') ↔ label.constant? = some v ∧ t = t' := by
  rw [labelValue]
  cases label.constant? with
  | none => simp [refuse_ok]
  | some value => simp [pure_ok]

/-- A case is taken by its key if no case before it has that key. -/
theorem takeCase_ok {taken taken' : TakenCases} {v : Float} {position : Nat} {span : Span} :
    takeCase taken v position span t = .ok (taken', t') ↔
      (caseKey? v = none ∧ taken = taken' ∨
        ∃ key, caseKey? v = some key ∧ taken[key]? = none ∧
          taken.insert key ⟨position, span⟩ = taken') ∧ t = t' := by
  rw [takeCase]
  cases caseKey? v with
  | none => simp [pure_ok]
  | some key =>
    simp only [reduceCtorEq, false_and, false_or, Option.some.injEq, exists_eq_left']
    cases taken[key]? with
    | none => simp only [pure_ok, true_and]
    | some first => simp only [refuse_ok, reduceCtorEq, false_and]

end Compile

theorem compileOptional_ok {registry : Registry} {scope : Scope} {o : Option Tree} {t t' : Tally}
    {r : Option Compiled} :
    compileOptional registry scope o t = .ok (r, t') ↔
      o = none ∧ r = none ∧ t = t' ∨
        ∃ tree c, o = some tree ∧ r = some c ∧ tree.compile registry scope t = .ok (c, t') := by
  cases o with
  | none =>
    simp only [compileOptional, pure_ok, reduceCtorEq, false_and, exists_false, or_false, true_and,
      eq_comm (a := none)]
  | some tree =>
    simp only [compileOptional, bind_ok, pure_ok, reduceCtorEq, false_and, false_or,
      Option.some.injEq]
    constructor
    · rintro ⟨c, t₁, h, rfl, rfl⟩
      exact ⟨tree, c, rfl, rfl, h⟩
    · rintro ⟨tree, c, rfl, rfl, h⟩
      exact ⟨c, t', h, rfl, rfl⟩

theorem compileArms_cons_ok {registry : Registry} {scope : Scope} {position : Nat}
    {taken taken' : TakenCases} {label body : Tree} {rest : List Arm} {bodies : List Code}
    {t t' : Tally} :
    compileArms registry scope position taken (⟨label, body⟩ :: rest) t =
        .ok ((taken', bodies), t') ↔
      ∃ lc t₁ v taken₁ bc t₂ more, label.compile registry scope t = .ok (lc, t₁) ∧
        lc.constant? = some v ∧ Compile.takeCase taken v position label.span t₁ = .ok (taken₁, t₁) ∧
        body.compile registry scope t₁ = .ok (bc, t₂) ∧
        compileArms registry scope (position + 1) taken₁ rest t₂ = .ok ((taken', more), t') ∧
        bc.code :: more = bodies := by
  simp only [compileArms, bind_ok, Compile.labelValue_ok, pure_ok]
  constructor
  · rintro ⟨lc, t₁, hlc, v, _, ⟨hv, rfl⟩, taken₁, _, htaken, bc, t₂, hbc, ⟨taken₂, more⟩, _, hrest,
      heq, rfl⟩
    cases heq
    cases (Compile.takeCase_ok.mp htaken).2
    exact ⟨lc, t₁, v, taken₁, bc, t₂, more, hlc, hv, htaken, hbc, hrest, rfl⟩
  · rintro ⟨lc, t₁, v, taken₁, bc, t₂, more, hlc, hv, htaken, hbc, hrest, rfl⟩
    exact ⟨lc, t₁, hlc, v, t₁, ⟨hv, rfl⟩, taken₁, t₁, htaken, bc, t₂, hbc, (taken', more), t',
      hrest, rfl, rfl⟩

theorem Expression.compile_ok {registry : Registry} {tree : Tree} {x : Expression} :
    Expression.compile registry tree = .ok x ↔
      ∃ c t, tree.compile registry .outermost .zero = .ok (c, t) ∧
        ⟨c.code, registry.identity, t.nodes, t.vars.toList⟩ = x := by
  rw [Expression.compile, StateT.run]
  cases tree.compile registry .outermost .zero with
  | error e =>
    constructor
    · nofun
    · rintro ⟨_, _, h, _⟩
      cases h
  | ok r =>
    obtain ⟨c, t⟩ := r
    constructor
    · exact fun h => ⟨c, t, rfl, Except.ok.inj h⟩
    · rintro ⟨_, _, h, rfl⟩
      cases h
      rfl

end ShapeScript
