import ShapeScript.Proofs.Syntax.Building
import ShapeScript.Proofs.Compile.Renaming
import ShapeScript.Proofs.Expression.Frame

/-!
# Numbers of names are unobservable

Slots are kept by the numbers of names, and so compiled code asks for them by number
(`NumberedExpression`); the texts come in again for errors and for the list of variables. Such an
expression does what the expression of the same tree does by text
(`NumberedExpression.Realizes`). So two of them that come from the same steps of building cannot be
told apart, however different the numbers are (`NumberedExpression.numbers_unobservable`).
-/

namespace ShapeScript

/-! ## Slots by number -/

/-- What slots call a variable that goes by its number. -/
def Name.key (n : Name) : String := n.index.repr

theorem Name.key_inj {m n : Name} : m.key = n.key ↔ m = n := by
  refine ⟨fun same => ?_, congrArg key⟩
  have indices := congrArg String.toNat? same
  rw [key, key, Nat.toNat?_repr, Nat.toNat?_repr] at indices
  cases m
  cases n
  cases indices
  rfl

namespace Interner

/-- What slots call a variable; nothing is called by the empty string. -/
def key (i : Interner) (var : String) : String := ((i.find? var).map Name.key).getD ""

/-- The text of the variable that slots call by a number. -/
def textOf (i : Interner) (key : String) : String :=
  (key.toNat?.bind fun index => i.text? ⟨index⟩).getD key

/-- The slot under the number of a variable. -/
def slot? (i : Interner) (s : Slots) (var : String) : Option Slot :=
  (i.find? var).bind fun n => s.slot? n.key

/-- The same slots by text. -/
def byText (i : Interner) (s : Slots) : Slots := ⟨i.names.filterMap fun _ n => s.slot? n.key⟩

theorem slot?_byText (i : Interner) (s : Slots) (var : String) :
    (i.byText s).slot? var = i.slot? s var := Std.TreeMap.getElem?_filterMap'

section
variable {i : Interner} {var : String} {n : Name}

theorem key_of_find? (numbered : i.find? var = some n) : i.key var = n.key := by
  rw [key, numbered]
  rfl

theorem textOf_key (given : i.text? n = some var) : i.textOf n.key = var := by
  rw [textOf, Name.key, Nat.toNat?_repr, Option.bind_some, given]
  rfl

theorem slot?_of_find? (numbered : i.find? var = some n) (s : Slots) :
    i.slot? s var = s.slot? n.key := by
  rw [slot?, numbered]
  rfl

/-- Writing under the number of a variable writes this variable and no other. -/
theorem Lawful.slot?_write (lawful : i.Lawful) (numbered : i.find? var = some n) (s : Slots)
    (v : Float) (other : String) :
    i.slot? (s.write n.key v) other = if var = other then some (.var v) else i.slot? s other := by
  cases found : i.find? other with
  | none =>
    have ne : var ≠ other := by
      rintro rfl
      rw [numbered] at found
      cases found
    rw [slot?, slot?, found, if_neg ne]
    rfl
  | some m =>
    have same : n = m ↔ var = other := by
      have given := (lawful _ _).mp numbered
      have given' := (lawful _ _).mp found
      constructor
      · rintro rfl
        exact Option.some.inj (given.symm.trans given')
      · rintro rfl
        exact Option.some.inj (numbered.symm.trans found)
    rw [slot?_of_find? found, slot?_of_find? found, Slots.slot?_write]
    simp only [Name.key_inj, same]

end
end Interner

/-- The environments do not differ in what an expression can see, if each one looks up slots in its
own way. -/
structure Environment.AgreeBy (look look' : Slots → String → Option Slot) (e e' : Environment) :
    Prop where
  slots var : look e.slots var = look' e'.slots var
  registry : e.setting.registry = e'.setting.registry
  ceiling : e.setting.ceiling = e'.setting.ceiling
  expired : e.isExpired = e'.isExpired

namespace Environment.AgreeBy

variable {look look' look'' : Slots → String → Option Slot} {e e' e'' : Environment}

theorem symm (h : AgreeBy look look' e e') : AgreeBy look' look e' e :=
  ⟨fun var => (h.slots var).symm, h.registry.symm, h.ceiling.symm, h.expired.symm⟩

theorem trans (h : AgreeBy look look' e e') (h' : AgreeBy look' look'' e' e'') :
    AgreeBy look look'' e e'' :=
  ⟨fun var => (h.slots var).trans (h'.slots var), h.registry.trans h'.registry,
    h.ceiling.trans h'.ceiling, h.expired.trans h'.expired⟩

/-- Only the slots have changed. -/
theorem of_slots (h : AgreeBy look look' e e') {g g' : Environment}
    (slots : ∀ var, look g.slots var = look' g'.slots var) (kept : g.setting = e.setting)
    (kept' : g'.setting = e'.setting) : AgreeBy look look' g g' := by
  refine ⟨slots, ?_, ?_, ?_⟩
  · rw [kept, kept', h.registry]
  · rw [kept, kept', h.ceiling]
  · rw [isExpired, isExpired, kept, kept']
    exact h.expired

/-- An environment with slots by number, and the same one by text. -/
theorem byText (j : Interner) (e : Environment) :
    AgreeBy j.slot? Slots.slot? e (e.withSlots (j.byText e.slots)) :=
  ⟨fun var => (j.slot?_byText e.slots var).symm, rfl, rfl, rfl⟩

end Environment.AgreeBy

/-! ## Renamed expressions -/

/-- Compiling ends with the same error, or with results that belong together. -/
inductive CompilesAlike {α β : Type} (same : α → β → Prop) :
    Except CompileError α → Except CompileError β → Prop where
  | ok {a b} : same a b → CompilesAlike same (.ok a) (.ok b)
  | error e : CompilesAlike same (.error e) (.error e)

/-- Two compilations that are each like a third one are alike. -/
theorem CompilesAlike.join {α β γ : Type} {same : α → γ → Prop} {same' : β → γ → Prop}
    {both : α → β → Prop} {r : Except CompileError α} {r' : Except CompileError β}
    {third : Except CompileError γ} (h : CompilesAlike same r third)
    (h' : CompilesAlike same' r' third) (joined : ∀ {a b c}, same a c → same' b c → both a b) :
    CompilesAlike both r r' := by
  cases h with
  | error e =>
    cases h'
    exact .error e
  | ok hc =>
    cases h' with
    | ok hc' => exact .ok (joined hc hc')

/-- How an evaluation fails if variables go by other names. -/
def Halt.rename (f : String → String) : Halt → Halt
  | .error raised => .error ⟨raised.fault.rename f, raised.span?⟩
  | .overrun => .overrun

namespace Expression

/-- The variables of an expression by other names, in ascending order. -/
def varsBy (f : String → String) (x : Expression) : List String :=
  (x.vars.map f).mergeSort fun var var' => (compare var var').isLE

/-- An evaluation with the variable that its error names renamed. -/
def evaluateBy (f : String → String) (x : Expression) (e : Environment) : Evaluated × Environment :=
  ((x.evaluate e).1.mapError (Halt.rename f), (x.evaluate e).2)

/-- The expressions are the same but for the names of their variables. -/
structure Renamed (P : Pairing) (f : String → String) (x y : Expression) : Prop where
  registry : x.registry = y.registry
  nodeCount : x.nodeCount = y.nodeCount
  vars : x.varsBy f = y.vars
  code : P.InStep (RenamesTo f) x.code y.code

theorem compile_rename {P : Pairing} {ρ f : String → String} (registry : Registry) {tree : Tree}
    (renames : ∀ {node inner var}, tree.Holds .outermost node inner → node.named? = some var →
      P.Renames ρ f var) :
    CompilesAlike (Renamed P f) (compile registry (tree.rename ρ)) (compile registry tree) := by
  have inStep : tree.CompilesInStep P ρ f registry .outermost := tree.compile_rename .outermost renames
  have ends := inStep _ _ (.zero ρ f)
  change CompilesAlike _
    (((tree.rename ρ).compile registry .outermost .zero).map fun r =>
      (⟨r.1.code, registry.identity, r.2.nodes, r.2.vars.toList⟩ : Expression))
    ((tree.compile registry .outermost .zero).map fun r =>
      (⟨r.1.code, registry.identity, r.2.nodes, r.2.vars.toList⟩ : Expression))
  generalize (tree.rename ρ).compile registry .outermost .zero = r,
    tree.compile registry .outermost .zero = r' at ends
  cases ends with
  | ok same tallies => exact .ok ⟨rfl, tallies.nodes, mergeSort_eq_toList tallies.perm_vars, same.code⟩
  | error e => exact .error e

theorem conclude_rename (f : String → String) (e : Signal) :
    (conclude (.error e)).mapError (Halt.rename f) = conclude (.error (e.rename f)) := by
  cases e <;> rfl

/-- Renamed expressions evaluate to the same but for the names in errors, and leave related slots. -/
theorem evaluate_of_renamed {P : Pairing} {f : String → String} {x y : Expression}
    (h : Renamed P f x y) (uncut : ∀ fault, ¬P.cut fault) {e e' : Environment}
    (left : e.setting = P.left) (right : e'.setting = P.right)
    (same_registry : e.setting.registry = e'.setting.registry) (slots : P.slots e.slots e'.slots) :
    (x.evaluateBy f e).1 = (y.evaluate e').1 ∧
      P.slots (x.evaluateBy f e).2.slots (y.evaluate e').2.slots := by
  rw [evaluateBy, evaluate, evaluate, h.registry, same_registry]
  split
  · exact ⟨rfl, slots⟩
  · rw [runIn, runIn, left, right]
    rcases h.code.ends uncut slots with ⟨value, t, t', run, run', ht⟩ |
        ⟨signal, signal', t, t', run, run', same, ht⟩
    · rw [run, run']
      exact ⟨rfl, ht⟩
    · rw [run, run', ← same]
      exact ⟨conclude_rename f signal, ht⟩

end Expression

/-! ## Expressions by number -/

/-- An expression that calls variables by their numbers, and the texts of the numbers. -/
structure NumberedExpression where
  byNumber : Expression
  interner : Interner

namespace NumberedExpression

/-- Compiles what is under a node of an arena, if there is a tree under it. -/
def compile? (registry : Registry) (w : Workspace) (root : NodeId) :
    Option (Except CompileError NumberedExpression) :=
  (w.arena.tree? w.interner root).map fun tree =>
    (Expression.compile registry (tree.rename w.interner.key)).map (⟨·, w.interner⟩)

def nodeCount (x : NumberedExpression) : Nat := x.byNumber.nodeCount

/-- The variables that the expression reads or writes, by text and in ascending order. -/
def vars (x : NumberedExpression) : List String := x.byNumber.varsBy x.interner.textOf

/-- Evaluates once, in an environment that keeps slots by number. -/
def evaluate (x : NumberedExpression) (e : Environment) : Evaluated × Environment :=
  x.byNumber.evaluateBy x.interner.textOf e

/-- What an expression does by number, another one does by text. The interner of the first may have
grown since it was compiled. -/
structure Realizes (x : NumberedExpression) (y : Expression) : Prop where
  nodeCount : x.nodeCount = y.nodeCount
  vars : x.vars = y.vars
  evaluate {later : List String} {e e' : Environment} :
    Environment.AgreeBy (x.interner.internAll later).slot? Slots.slot? e e' →
      (x.evaluate e).1 = (y.evaluate e').1 ∧
        Environment.AgreeBy (x.interner.internAll later).slot? Slots.slot? (x.evaluate e).2
          (y.evaluate e').2

section
variable {i j : Interner} {e e' : Environment}

/-- A run by number is paired with one by text. -/
def pairing (agree : Environment.AgreeBy j.slot? Slots.slot? e e') : Pairing where
  left := e.setting
  right := e'.setting
  slots s s' := ∀ var, j.slot? s var = s'.slot? var
  cut _ := False
  function? _ := by rw [agree.registry]
  ceiling := .inl agree.ceiling
  expired := .inl agree.expired

theorem renames_of_text? (lawful : i.Lawful) (lawful' : j.Lawful) (grown : i.Extends j)
    (agree : Environment.AgreeBy j.slot? Slots.slot? e e') {n : Name} {var : String}
    (given : i.text? n = some var) : (pairing agree).Renames i.key i.textOf var := by
  have numbered := (lawful _ _).mpr given
  have numbered' := grown.find? numbered
  have key := Interner.key_of_find? numbered
  refine ⟨fun how => ⟨fun {s s'} same => ?_, fun {s s' v} same _ other => ?_⟩, ?_⟩
  · rw [key, ← Interner.slot?_of_find? numbered']
    exact same var
  · rw [key, lawful'.slot?_write numbered', Slots.slot?_write, same other]
  · rw [key, Interner.textOf_key given]

end

/-- Compiled by number, a tree of an arena does what it does compiled by text. -/
theorem compile?_realizes (registry : Registry) {w : Workspace} (lawful : w.interner.Lawful)
    (root : NodeId) :
    Option.Rel (CompilesAlike Realizes) (compile? registry w root)
      ((w.arena.tree? w.interner root).map (Expression.compile registry)) := by
  rw [compile?]
  cases unfolded : w.arena.tree? w.interner root with
  | none => exact .none
  | some tree =>
    refine .some ?_
    change CompilesAlike Realizes
      ((Expression.compile registry (tree.rename w.interner.key)).map (⟨·, w.interner⟩))
      (Expression.compile registry tree)
    -- the two compilations end alike, whatever environments are run in later
    have ends : ∀ {later e e'}
        (agree : Environment.AgreeBy (w.interner.internAll later).slot? Slots.slot? e e'),
        CompilesAlike (Expression.Renamed (pairing agree) w.interner.textOf)
          (Expression.compile registry (tree.rename w.interner.key))
          (Expression.compile registry tree) := by
      intro later e e' agree
      refine Expression.compile_rename registry fun held named => ?_
      obtain ⟨n, given⟩ := Arena.exists_text?_of_tree? unfolded held named
      exact renames_of_text? lawful (lawful.internAll later) (.internAll _ later) agree given
    have start := ends (.byText (w.interner.internAll []) (.fresh registry .never 0))
    generalize Expression.compile registry (tree.rename w.interner.key) = r,
      Expression.compile registry tree = r' at ends start
    cases start with
    | error e => exact .error e
    | ok first =>
      refine .ok ⟨first.nodeCount, first.vars, fun {later e e'} agree => ?_⟩
      cases ends agree with
      | ok renamed =>
        have ⟨result, slots⟩ := Expression.evaluate_of_renamed renamed (fun _ => id) rfl rfl
          agree.registry agree.slots
        exact ⟨result, agree.of_slots slots (Expression.setting_evaluate _ e)
          (Expression.setting_evaluate _ e')⟩

/-- No way of looking at the two expressions tells them apart. Their interners may have grown since
they were compiled. -/
structure Indistinguishable (x x' : NumberedExpression) : Prop where
  nodeCount : x.nodeCount = x'.nodeCount
  vars : x.vars = x'.vars
  evaluate {later later' : List String} {e e' : Environment} :
    Environment.AgreeBy (x.interner.internAll later).slot? (x'.interner.internAll later').slot? e e' →
      (x.evaluate e).1 = (x'.evaluate e').1 ∧
        Environment.AgreeBy (x.interner.internAll later).slot? (x'.interner.internAll later').slot?
          (x.evaluate e).2 (x'.evaluate e').2

/-- Two expressions that do by number what a third one does by text cannot be told apart. -/
theorem Realizes.indistinguishable {x x' : NumberedExpression} {y : Expression} (h : x.Realizes y)
    (h' : x'.Realizes y) : x.Indistinguishable x' := by
  refine ⟨h.nodeCount.trans h'.nodeCount.symm, h.vars.trans h'.vars.symm,
    fun {later later' e e'} agree => ?_⟩
  have byText := Environment.AgreeBy.byText (x.interner.internAll later) e
  have ⟨result, slots⟩ := h.evaluate byText
  have ⟨result', slots'⟩ := h'.evaluate (agree.symm.trans byText)
  exact ⟨result.trans result'.symm, slots.trans slots'.symm⟩

/-- The numbers of names are unobservable. Whatever two interners have interned before, the same
steps of building fail with the same error or make the same nodes. What is under any of the nodes
then fails to compile with the same error, or compiles to expressions that no one can tell apart. -/
theorem numbers_unobservable (earlier earlier' : List String) (steps : List (Step × Option Span)) :
    let start : List String → Workspace := fun earlier => ⟨.empty, Interner.fresh.internAll earlier⟩
    (∃ error w w', Step.buildAll steps (start earlier) = .error error w ∧
      Step.buildAll steps (start earlier') = .error error w') ∨
    ∃ made w w', Step.buildAll steps (start earlier) = .ok made w ∧
      Step.buildAll steps (start earlier') = .ok made w' ∧
      ∀ registry root, Option.Rel (CompilesAlike Indistinguishable) (compile? registry w root)
        (compile? registry w' root) := by
  intro start
  have alike : (start earlier).Alike (start earlier') :=
    ⟨Interner.lawful_fresh.internAll earlier, Interner.lawful_fresh.internAll earlier', rfl, rfl, rfl,
      fun _ => .none⟩
  have built := Step.buildAll_alike alike steps
  generalize Step.buildAll steps (start earlier) = r, Step.buildAll steps (start earlier') = r' at built
  cases built with
  | @error error w w' _ => exact .inl ⟨error, w, w', rfl, rfl⟩
  | @ok made made' w w' alike same =>
    cases same
    refine .inr ⟨made, w, w', rfl, rfl, fun registry root => ?_⟩
    have byText := compile?_realizes registry alike.lawful root
    have byText' := compile?_realizes registry alike.lawful' root
    rw [← alike.tree? root] at byText'
    generalize compile? registry w root = r, compile? registry w' root = r',
      (w.arena.tree? w.interner root).map (Expression.compile registry) = text at byText byText'
    cases byText with
    | none =>
      cases byText'
      exact .none
    | some ends =>
      cases byText' with
      | some ends' => exact .some (ends.join ends' Realizes.indistinguishable)

/-- A variable has another number if its name and a second one are already there. -/
theorem numbers_unobservable_of_known_names :
    let steps : List (Step × Option Span) :=
      [(.form (.ident "x"), none), (.form (.literal "2"), none), (.form (.binary .add 0 1), none)]
    let start : List String → Workspace := fun earlier => ⟨.empty, Interner.fresh.internAll earlier⟩
    ∃ made w w' x x', Step.buildAll steps (start []) = .ok made w ∧
      Step.buildAll steps (start ["y", "x"]) = .ok made w' ∧
      w.interner.find? "x" = some ⟨1⟩ ∧ w'.interner.find? "x" = some ⟨2⟩ ∧
      compile? (.empty 0) w ⟨2⟩ = some (.ok x) ∧ compile? (.empty 0) w' ⟨2⟩ = some (.ok x') ∧
      x.Indistinguishable x' := by
  intro steps start
  rcases numbers_unobservable [] ["y", "x"] steps with
    ⟨error, w, w', built, -⟩ | ⟨made, w, w', built, built', ends⟩
  · cases built
  · have ends := ends (.empty 0) ⟨2⟩
    have compiled : (compile? (.empty 0) w ⟨2⟩).any Except.isOk = true := by
      cases built
      decide +kernel
    generalize hx : compile? (.empty 0) w ⟨2⟩ = r, hx' : compile? (.empty 0) w' ⟨2⟩ = r' at ends compiled
    cases ends with
    | none => cases compiled
    | some ends =>
      cases ends with
      | error e => cases compiled
      | ok same =>
        refine ⟨made, w, w', _, _, built, built', ?_, ?_, hx, hx', same⟩
        · cases built
          rfl
        · cases built'
          rfl

end NumberedExpression
end ShapeScript
