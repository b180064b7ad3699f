/-!
The operators of the language: their symbols in scripts, and their labels in listings of trees.
-/

namespace ShapeScript

inductive BinaryOp where
  | add | sub | mul | div | mod | pow
  | shiftLeft | shiftRight
  | less | lessEq | greater | greaterEq
  | equal | notEqual | near
  | and | or
deriving DecidableEq, Repr

namespace BinaryOp

def all : List BinaryOp :=
  [add, sub, mul, div, mod, pow, shiftLeft, shiftRight, less, lessEq, greater, greaterEq, equal,
    notEqual, near, and, or]

def symbol : BinaryOp → String
  | add => "+"
  | sub => "-"
  | mul => "*"
  | div => "/"
  | mod => "%"
  | pow => "^"
  | shiftLeft => "<<"
  | shiftRight => ">>"
  | less => "<"
  | lessEq => "<="
  | greater => ">"
  | greaterEq => ">="
  | equal => "=="
  | notEqual => "!="
  | near => "~="
  | and => "&&"
  | or => "||"

def label : BinaryOp → String
  | add => "Add"
  | sub => "Sub"
  | mul => "Mul"
  | div => "Div"
  | mod => "Mod"
  | pow => "Pow"
  | shiftLeft => "Shl"
  | shiftRight => "Shr"
  | less => "Lt"
  | lessEq => "LtEq"
  | greater => "Gt"
  | greaterEq => "GtEq"
  | equal => "Eq"
  | notEqual => "NotEq"
  | near => "NearEq"
  | and => "And"
  | or => "Or"

/-- Whether the right operand may be skipped. -/
def isShortCircuit : BinaryOp → Bool
  | and | or => true
  | _ => false

def ofSymbol? (s : String) : Option BinaryOp := all.find? (·.symbol == s)

theorem ofSymbol?_symbol (op : BinaryOp) : ofSymbol? op.symbol = some op := by
  cases op <;> decide

end BinaryOp

/-- Operators that stand before their operand. -/
inductive UnaryOp where
  | not | complement | negate | plus | increment | decrement
deriving DecidableEq, Repr

namespace UnaryOp

def all : List UnaryOp := [not, complement, negate, plus, increment, decrement]

def symbol : UnaryOp → String
  | not => "!"
  | complement => "~"
  | negate => "-"
  | plus => "+"
  | increment => "++"
  | decrement => "--"

def label : UnaryOp → String
  | not => "Not"
  | complement => "Complement"
  | negate => "Neg"
  | plus => "Plus"
  | increment => "PreIncrement"
  | decrement => "PreDecrement"

/-- Whether the operand must be a variable. -/
def mutates : UnaryOp → Bool
  | increment | decrement => true
  | _ => false

def ofSymbol? (s : String) : Option UnaryOp := all.find? (·.symbol == s)

theorem ofSymbol?_symbol (op : UnaryOp) : ofSymbol? op.symbol = some op := by
  cases op <;> decide

end UnaryOp

/-- Operators that stand after their operand. -/
inductive SuffixOp where
  | factorial | increment | decrement
deriving DecidableEq, Repr

namespace SuffixOp

def all : List SuffixOp := [factorial, increment, decrement]

def symbol : SuffixOp → String
  | factorial => "!"
  | increment => "++"
  | decrement => "--"

def label : SuffixOp → String
  | factorial => "Factorial"
  | increment => "PostIncrement"
  | decrement => "PostDecrement"

/-- Whether the operand must be a variable. -/
def mutates : SuffixOp → Bool
  | increment | decrement => true
  | factorial => false

def ofSymbol? (s : String) : Option SuffixOp := all.find? (·.symbol == s)

theorem ofSymbol?_symbol (op : SuffixOp) : ofSymbol? op.symbol = some op := by
  cases op <;> decide

end SuffixOp

/-- Assignments: the plain one, and those that combine the old value with the new one. -/
inductive AssignOp where
  | assign | add | sub | mul | div | mod | pow
deriving DecidableEq, Repr

namespace AssignOp

def all : List AssignOp := [assign, add, sub, mul, div, mod, pow]

def symbol : AssignOp → String
  | assign => "="
  | add => "+="
  | sub => "-="
  | mul => "*="
  | div => "/="
  | mod => "%="
  | pow => "^="

def label : AssignOp → String
  | assign => "Assign"
  | add => "Add"
  | sub => "Sub"
  | mul => "Mul"
  | div => "Div"
  | mod => "Mod"
  | pow => "Pow"

/-- The operator that a compound assignment applies. -/
def binary? : AssignOp → Option BinaryOp
  | assign => none
  | add => some .add
  | sub => some .sub
  | mul => some .mul
  | div => some .div
  | mod => some .mod
  | pow => some .pow

def ofSymbol? (s : String) : Option AssignOp := all.find? (·.symbol == s)

theorem ofSymbol?_symbol (op : AssignOp) : ofSymbol? op.symbol = some op := by
  cases op <;> decide

end AssignOp

end ShapeScript
