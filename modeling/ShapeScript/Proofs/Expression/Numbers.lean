import ShapeScript.Expression
import ShapeScript.Proofs.Number.Reading
import ShapeScript.Proofs.Syntax.Storing

/-!
# Numbers survive the builder

The literal that a step makes from a number holds the text of the number (`Step.tree?_of_number`).
Compiling reads this text and evaluating answers what was read, so the number comes back with every
bit (`Expression.number_survives`).
-/

namespace ShapeScript

/-- The node that a step makes from a number unfolds to a literal with the text of the number, also
after more has been built. -/
theorem Step.tree?_of_number {w : Workspace} (lawful : w.interner.Lawful)
    (room : w.arena.size < 4294967295) (made : Array NodeId) (span? : Option Span) (v : Float) :
    ∃ id w', (Step.number v).build made span? w = .ok id w' ∧ ∀ w'', w'.Extends w'' →
      ∃ span, w''.arena.tree? w''.interner id = some (.literal span (Shortest.text v)) := by
  let form : Form NodeId := .literal (Shortest.text v)
  let span := span?.getD ⟨w.arena.size.toUInt32, w.arena.size.toUInt32 + 1⟩
  have fits : form.RowsFit := trivial
  obtain ⟨read, w', placed, stores, -, readsBack, located⟩ :=
    Build.place_ok lawful fits span (Nat.lt_trans room (by decide))
  obtain rfl : read = form := stores.same ⟨Arena.inReach_zero _, Arena.inReach_zero _⟩
  refine ⟨⟨w.arena.size⟩, w', placed, fun w'' more => ⟨span, ?_⟩⟩
  have located' := more.arena.span? located
  obtain ⟨node, held, -⟩ := Option.map_eq_some_iff.mp located'
  have lt : w.arena.size < w''.arena.size := (Array.getElem?_eq_some_iff.mp held).1
  obtain ⟨depth, size⟩ := Nat.exists_eq_add_one.mpr (Nat.zero_lt_of_lt lt)
  rw [Arena.tree?, size, Arena.unfoldTo?_succ (more.form? readsBack) located']
  rfl

namespace Expression

variable {registry : Registry} {text : String} {v : Float} {x : Expression} {e : Environment}

/-- A literal compiles if its text reads as a number, and then answers this number. -/
theorem compile_literal (read : Literal.parse? text = some v) (span : Span) :
    compile registry (.literal span text) = .ok ⟨pure (some v), registry.identity, 1, []⟩ := by
  rw [compile, Tree.compile, read]
  rfl

/-- Code that only answers leaves the environment alone, whatever its slots and limits are. -/
theorem evaluate_of_code_eq_pure (code : x.code = pure (some v))
    (same : e.setting.registry.identity = x.registry) : x.evaluate e = (.ok (some v), e) := by
  rw [evaluate, if_neg (not_not.mpr same), runIn, code]
  rfl

/-- A literal made from a number compiles, and in every environment on the registry that it was
compiled against it answers this number, bit for bit unless it is a NaN. -/
theorem number_survives {w : Workspace} (lawful : w.interner.Lawful)
    (room : w.arena.size < 4294967295) (made : Array NodeId) (span? : Option Span) (v : Float) :
    ∃ id w', (Step.number v).build made span? w = .ok id w' ∧ ∀ w'', w'.Extends w'' →
      ∃ tree, w''.arena.tree? w''.interner id = some tree ∧
        ∀ registry, ∃ x, compile registry tree = .ok x ∧
          ∀ e : Environment, e.setting.registry.identity = registry.identity →
            ∃ u, x.evaluate e = (.ok (some u), e) ∧ u.isNaN = v.isNaN ∧
              (v.isNaN = false → u.toBits = v.toBits) := by
  obtain ⟨id, w', built, unfolds⟩ := Step.tree?_of_number lawful room made span? v
  refine ⟨id, w', built, fun w'' more => ?_⟩
  obtain ⟨span, unfolded⟩ := unfolds w'' more
  refine ⟨_, unfolded, fun registry => ⟨_, compile_literal (Literal.parse?_text v) span, ?_⟩⟩
  exact fun e same => ⟨v, evaluate_of_code_eq_pure rfl same, rfl, fun _ => rfl⟩

/-- The least positive number has its first digit in the 324th place behind the point. -/
theorem number_survives_of_least :
    let least := Float.ofBits 1
    ∃ id w x, (Step.number least).build #[] none ⟨.empty, .fresh⟩ = .ok id w ∧
      (∃ tree, w.arena.tree? w.interner id = some tree ∧ compile (.empty 0) tree = .ok x) ∧
      ∃ u, (x.evaluate (.fresh (.empty 0) .never 0)).1 = .ok (some u) ∧ u.toBits = 1 := by
  intro least
  obtain ⟨id, w, built, unfolds⟩ :=
    number_survives (w := ⟨.empty, .fresh⟩) Interner.lawful_fresh (by decide) #[] none least
  obtain ⟨tree, unfolded, compiles⟩ := unfolds w (.refl w)
  obtain ⟨x, compiled, evaluates⟩ := compiles (.empty 0)
  obtain ⟨u, answered, -, bits⟩ := evaluates (.fresh (.empty 0) .never 0) rfl
  refine ⟨id, w, x, built, ⟨tree, unfolded, compiled⟩, u, congrArg Prod.fst answered, ?_⟩
  rw [bits (by decide)]
  decide

end Expression
end ShapeScript
