import ShapeScript.Compile.Compiled
import ShapeScript.Proofs.Run.Outcome

/-!
# Folding keeps the code

Whatever is done with compiled nodes beforehand, the code of the outcome is the plain run of their
codes: constants are computed, a known condition picks its branch, a known operand is built in, and
a single statement stands for its block.
-/

namespace ShapeScript.Compiled

theorem code_of_constant? {c : Compiled} {v : Float} (h : c.constant? = some v) :
    c.code = pure (some v) := by
  cases c with
  | constant value =>
    cases h
    rfl
  | dynamic code => cases h

theorem code_compute (f : Float → Float) (operand : Compiled) (span : Span) :
    (operand.compute f span).code = Run.compute f operand.code span := by
  cases operand <;> rfl

/-- With both operands at hand, the run of an operator is the operator. -/
theorem run_binary_pure (op : BinaryOp) (l r : Float) (leftSpan rightSpan : Span) :
    Run.binary op (pure (some l) : Code) leftSpan (pure (some r) : Code) rightSpan =
      (pure (some (op.apply l r)) : Code) := by
  cases op with
  | and =>
    have skipped :
        Run.binary .and (pure (some l) : Code) leftSpan (pure (some r) : Code) rightSpan =
          if Run.truth l then pure (some (Run.ofBool (Run.truth r))) else pure (some 0) := rfl
    rw [skipped, BinaryOp.apply]
    cases Run.truth l <;> rfl
  | or =>
    have skipped :
        Run.binary .or (pure (some l) : Code) leftSpan (pure (some r) : Code) rightSpan =
          if Run.truth l then pure (some 1) else pure (some (Run.ofBool (Run.truth r))) := rfl
    rw [skipped, BinaryOp.apply]
    cases Run.truth l <;> rfl
  | _ => rfl

theorem code_binary (op : BinaryOp) (left : Compiled) (leftSpan : Span) (right : Compiled)
    (rightSpan : Span) :
    (binary op left leftSpan right rightSpan).code =
      Run.binary op left.code leftSpan right.code rightSpan := by
  cases left with
  | constant l =>
    cases right with
    | constant r => exact (run_binary_pure op l r leftSpan rightSpan).symm
    | dynamic right => cases op <;> rfl
  | dynamic left => cases right <;> cases op <;> rfl

/-- A known condition decides at once. -/
theorem run_branch_pure (u : Float) (span : Span) (whenTrue whenFalse : Code) :
    Run.branch (pure (some u)) span whenTrue whenFalse =
      if Run.truth u then whenTrue else whenFalse := rfl

theorem code_branch (cond : Compiled) (condSpan : Span) (whenTrue whenFalse : Compiled) :
    (branch cond condSpan whenTrue whenFalse).code =
      Run.branch cond.code condSpan whenTrue.code whenFalse.code := by
  cases cond with
  | constant v =>
    rw [branch, code, run_branch_pure]
    split <;> rfl
  | dynamic code => rfl

theorem code_sequence (stmts : List Compiled) :
    (sequence stmts).code = Run.block (stmts.map code) none := by
  match stmts with
  | [] => rfl
  | [single] => exact (Run.block_singleton single.code).symm
  | _ :: _ :: _ => rfl

/-! ## Which nodes fold -/

theorem constant?_compute {f : Float → Float} {operand : Compiled} {span : Span} {v : Float} :
    (operand.compute f span).constant? = some v ↔ ∃ u, operand.constant? = some u ∧ f u = v := by
  cases operand <;> simp [compute, constant?]

theorem constant?_binary {op : BinaryOp} {left right : Compiled} {leftSpan rightSpan : Span}
    {v : Float} : (binary op left leftSpan right rightSpan).constant? = some v ↔
      ∃ l r, left.constant? = some l ∧ right.constant? = some r ∧ op.apply l r = v := by
  cases left <;> cases right <;> cases op <;>
    simp [binary, constant?, BinaryOp.isShortCircuit]

theorem constant?_branch {cond whenTrue whenFalse : Compiled} {condSpan : Span} {v : Float} :
    (branch cond condSpan whenTrue whenFalse).constant? = some v ↔ ∃ u, cond.constant? = some u ∧
      (if Run.truth u then whenTrue else whenFalse).constant? = some v := by
  cases cond <;> simp [branch, constant?]

theorem constant?_sequence {stmts : List Compiled} {v : Float} :
    (sequence stmts).constant? = some v ↔
      ∃ single, stmts = [single] ∧ single.constant? = some v := by
  match stmts with
  | [] => simp [sequence, nothing, constant?]
  | [single] => simp [sequence]
  | _ :: _ :: _ => simp [sequence, constant?]

end ShapeScript.Compiled
