/-!
The codes of errors.

A code is `E` and four digits. The first digit tells the phase: 1 for errors found while compiling,
2 for failed runs, 3 for runs that used up their time or their iterations.
-/

namespace ShapeScript

inductive Phase where
  | compile
  | evaluation
  | resourceExhaustion
deriving DecidableEq, Repr

namespace Phase

def label : Phase → String
  | compile => "Compile"
  | evaluation => "Evaluation"
  | resourceExhaustion => "ResourceExhaustion"

end Phase

inductive ErrorCode where
  | unknownFunction
  | notAssignable
  | referenceArgument
  | duplicateCase
  | caseLabelNotConstant
  | malformedNumber
  | uninitializedVariable
  | constantReassignment
  | continueOutsideLoop
  | breakOutsideLoop
  | noValue
  | functionFailed
  | registryMismatch
  | inputArity
  | timeout
  | iterationLimit
deriving DecidableEq, Repr

namespace ErrorCode

def all : List ErrorCode :=
  [unknownFunction, notAssignable, referenceArgument, duplicateCase, caseLabelNotConstant,
    malformedNumber, uninitializedVariable, constantReassignment, continueOutsideLoop,
    breakOutsideLoop, noValue, functionFailed, registryMismatch, inputArity, timeout,
    iterationLimit]

def text : ErrorCode → String
  | unknownFunction => "E1001"
  | notAssignable => "E1002"
  | referenceArgument => "E1003"
  | duplicateCase => "E1004"
  | caseLabelNotConstant => "E1005"
  | malformedNumber => "E1006"
  | uninitializedVariable => "E2001"
  | constantReassignment => "E2002"
  | continueOutsideLoop => "E2003"
  | breakOutsideLoop => "E2004"
  | noValue => "E2005"
  | functionFailed => "E2006"
  | registryMismatch => "E2007"
  | inputArity => "E2008"
  | timeout => "E3001"
  | iterationLimit => "E3002"

/-- The name of the code. -/
def label : ErrorCode → String
  | unknownFunction => "UnknownFunction"
  | notAssignable => "NotAssignable"
  | referenceArgument => "ReferenceArgument"
  | duplicateCase => "DuplicateCase"
  | caseLabelNotConstant => "CaseLabelNotConstant"
  | malformedNumber => "MalformedNumber"
  | uninitializedVariable => "UninitializedVariable"
  | constantReassignment => "ConstantReassignment"
  | continueOutsideLoop => "ContinueOutsideLoop"
  | breakOutsideLoop => "BreakOutsideLoop"
  | noValue => "NoValue"
  | functionFailed => "FunctionFailed"
  | registryMismatch => "RegistryMismatch"
  | inputArity => "InputArity"
  | timeout => "Timeout"
  | iterationLimit => "IterationLimit"

def phase : ErrorCode → Phase
  | unknownFunction | notAssignable | referenceArgument | duplicateCase | caseLabelNotConstant
  | malformedNumber => .compile
  | uninitializedVariable | constantReassignment | continueOutsideLoop | breakOutsideLoop | noValue
  | functionFailed | registryMismatch | inputArity => .evaluation
  | timeout | iterationLimit => .resourceExhaustion

/-- What an error with this code means, in one line. -/
def description : ErrorCode → String
  | unknownFunction => "no function with this name takes that many arguments"
  | notAssignable => "only variables can be assigned, incremented or decremented"
  | referenceArgument => "this argument is passed by reference and must be a variable"
  | duplicateCase => "a switch has two cases with the same value"
  | caseLabelNotConstant => "case labels must be constant"
  | malformedNumber => "numeric literal is malformed"
  | uninitializedVariable => "variable was read before it was assigned"
  | constantReassignment => "a constant cannot be used as a variable"
  | continueOutsideLoop => "continue is only valid inside a loop"
  | breakOutsideLoop => "break is only valid inside a loop or switch"
  | noValue => "a value was required but the expression produced none"
  | functionFailed => "a built-in function failed"
  | registryMismatch => "expression compiled against a different function registry"
  | inputArity => "a batch row does not supply exactly one value per input"
  | timeout => "calculations exceeded the time limit"
  | iterationLimit => "a loop exceeded its iteration limit"

def ofText? (s : String) : Option ErrorCode := all.find? (·.text == s)

theorem ofText?_text (c : ErrorCode) : ofText? c.text = some c := by
  cases c <;> decide

end ErrorCode

end ShapeScript
