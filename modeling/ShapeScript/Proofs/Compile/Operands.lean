import ShapeScript.Proofs.Compile.Folds
import ShapeScript.Proofs.Compile.Meaning

/-!
# Operators and the values of their operands

What an operator makes of the values of its operands does not depend on how it comes by them. Values
that are known beforehand give a value known beforehand, values that a run computes give the same
value to the run, and an operator that has got its values never fails (`BinaryOp.answers`,
`UnaryOp.answers`). The operators that may skip an operand are not among them.
-/

namespace ShapeScript

open Compilation

/-- From operands with the values `l` and `r` the operator makes `v`, wherever it stands. -/
structure BinaryOp.Answers (op : BinaryOp) (l r v : Float) : Prop where
  /-- The value is known beforehand if those of the operands are. -/
  known {registry scope span t t' c} {left right : Tree} : left.Folds l → right.Folds r →
    (Tree.binary span op left right).compile registry scope t = .ok (c, t') → c = .constant v
  /-- A run has the value once it has those of the operands, and changes no slot after them. -/
  computed {registry registry' scope span t t' c setting slots s s'} {left right : Tree} :
    (Tree.binary span op left right).compile registry scope t = .ok (c, t') →
    registry.Extends registry' → left.walk registry' scope setting slots = .ok (some l) s →
    right.walk registry' scope setting s = .ok (some r) s' → c.code setting slots = .ok (some v) s'

/-- From an operand with the value `w` the operator makes `v`, wherever it stands. -/
structure UnaryOp.Answers (op : UnaryOp) (w v : Float) : Prop where
  known {registry scope span t t' c} {operand : Tree} : operand.Folds w →
    (Tree.unary span op operand).compile registry scope t = .ok (c, t') → c = .constant v
  computed {registry registry' scope span t t' c setting slots s} {operand : Tree} :
    (Tree.unary span op operand).compile registry scope t = .ok (c, t') →
    registry.Extends registry' → operand.walk registry' scope setting slots = .ok (some w) s →
    c.code setting slots = .ok (some v) s

variable {registry : Registry} {scope : Scope} {t t' : Tally} {c : Compiled} {setting : Setting}
  {slots s s' : Slots} {l r v w : Float}

theorem Tree.Folds.eq_constant {tree : Tree} (folds : tree.Folds v)
    (compiled : tree.compile registry scope t = .ok (c, t')) : c = .constant v := by
  have constant := (Tree.constant?_eq_some_iff_folds compiled).mpr folds
  cases c with
  | constant w =>
    cases constant
    rfl
  | dynamic code => cases constant

namespace Run

/-- Two operands that must both be there, and then the operator. -/
theorem binary_of_values {op : BinaryOp} (skips : op.isShortCircuit = false) {left right : Code}
    (left_run : left setting slots = .ok (some l) s) (right_run : right setting s = .ok (some r) s')
    (leftSpan rightSpan : Span) :
    binary op left leftSpan right rightSpan setting slots = .ok (some (op.apply l r)) s' := by
  have plain : binary op left leftSpan right rightSpan = (do
      let l ← required left leftSpan
      return some (op.apply l (← required right rightSpan))) := by
    cases op <;> first | rfl | cases skips
  rw [plain, bind_of_ok (required_of_value left_run _), bind_of_ok (required_of_value right_run _)]
  rfl

theorem compute_of_value (f : Float → Float) {operand : Code}
    (run : operand setting slots = .ok (some w) s) (span : Span) :
    compute f operand span setting slots = .ok (some (f w)) s := by
  rw [compute, bind_of_ok (required_of_value run _)]
  rfl

end Run

theorem BinaryOp.answers (op : BinaryOp) (skips : op.isShortCircuit = false) (l r : Float) :
    op.Answers l r (op.apply l r) where
  known hl hr compiled := Tree.Folds.eq_constant (.binary hl hr) compiled
  computed compiled grown left_run right_run := by
    rw [Tree.code_of_compile grown _ _ _ _ _ compiled, Tree.walk]
    exact Run.binary_of_values skips left_run right_run _ _

theorem UnaryOp.answers {op : UnaryOp} {f : Float → Float} (effect : op.effect = .compute f)
    (w : Float) : op.Answers w (f w) where
  known h compiled := Tree.Folds.eq_constant (.unary effect h) compiled
  computed compiled grown run := by
    rw [Tree.code_of_compile grown _ _ _ _ _ compiled, Tree.walk, effect]
    exact Run.compute_of_value f run _

end ShapeScript
