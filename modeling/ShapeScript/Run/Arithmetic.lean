import ShapeScript.Run.Signal
import ShapeScript.Syntax.Operator
import ShapeScript.Number.Integer
import ShapeScript.Number.Nearness
import ShapeScript.Number.Factorial

/-!
What operators compute. Comparisons and logic answer one or zero.
-/

namespace ShapeScript

open Run

/-- Both operands are values here; the logical operators do not skip any. There is one NaN among
`Float`s, so `near` finds it near to itself; which NaN patterns are near to each other is a matter of
`Nearness.near`. -/
def BinaryOp.apply : BinaryOp → Float → Float → Float
  | add, l, r => l + r
  | sub, l, r => l - r
  | mul, l, r => l * r
  | div, l, r => l / r
  | mod, l, r => Binary64.remainder l r
  | pow, l, r => l.pow r
  | shiftLeft, l, r => Integer.shiftLeft l r
  | shiftRight, l, r => Integer.shiftRight l r
  | less, l, r => ofBool (l < r)
  | lessEq, l, r => ofBool (l ≤ r)
  | greater, l, r => ofBool (r < l)
  | greaterEq, l, r => ofBool (r ≤ l)
  | equal, l, r => ofBool (l == r)
  | notEqual, l, r => ofBool (l != r)
  | near, l, r => ofBool (Nearness.near l.toBits r.toBits)
  | and, l, r => ofBool (truth l && truth r)
  | or, l, r => ofBool (truth l || truth r)

/-- An operator on one operand either computes from its value or steps a variable. -/
inductive Effect where
  | compute (f : Float → Float)
  | step (delta : Float)

def UnaryOp.effect : UnaryOp → Effect
  | not => .compute fun v => ofBool (!truth v)
  | complement => .compute Integer.complement
  | negate => .compute fun v => -v
  | plus => .compute fun v => v
  | increment => .step 1
  | decrement => .step (-1)

def SuffixOp.effect : SuffixOp → Effect
  | factorial => .compute Factorial.ofNumber
  | increment => .step 1
  | decrement => .step (-1)

namespace Run

/-- Both operands from left to right, then the operator. The right operand of `and` and `or` is
skipped if the left one decides. -/
def binary (op : BinaryOp) (left : Code) (leftSpan : Span) (right : Code) (rightSpan : Span) :
    Code := do
  let l ← required left leftSpan
  match op with
  | .and => if truth l then return some (ofBool (← condition right rightSpan)) else return some 0
  | .or => if truth l then return some 1 else return some (ofBool (← condition right rightSpan))
  | _ => return some (op.apply l (← required right rightSpan))

/-- Computes from the value of an operand. -/
def compute (f : Float → Float) (operand : Code) (span : Span) : Code :=
  return some (f (← required operand span))

/-- Steps a variable; the value is the new one. -/
def stepBefore (delta : Float) (var : String) (span : Span) : Code :=
  return some (← change var span (· + delta)).2

/-- Steps a variable; the value is the old one. -/
def stepAfter (delta : Float) (var : String) (span : Span) : Code :=
  return some (← change var span (· + delta)).1

/-- Assigns the value of a run, which is computed before the target is looked at. -/
def assignment (op : AssignOp) (var : String) (span : Span) (value : Code) (valueSpan : Span) :
    Code := do
  let v ← required value valueSpan
  match op.binary? with
  | none =>
    assign var span v
    return some v
  | some op => return some (← change var span (op.apply · v)).2

/-- One of two branches, by the truth of a condition. -/
def branch (cond : Code) (condSpan : Span) (whenTrue whenFalse : Code) : Code := do
  if ← condition cond condSpan then whenTrue else whenFalse

end Run

end ShapeScript
