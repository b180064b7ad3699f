import ShapeScript.Report.Diagnostic
import ShapeScript.Number.Shortest

/-!
Failures of compiling and of running, as causes with a place.

The wording of a cause is in one function, `message`; a diagnostic adds the label of the place and
the notes.
-/

namespace ShapeScript

/-- Why a tree is refused. -/
inductive CompileFault where
  | unknownFunction (name : String) (arity : Nat)
  | notAssignable (symbol : String)
  /-- Positions of arguments start at one. -/
  | referenceArgument (function : String) (position : Nat)
  | duplicateCase (value : Float)
  | caseLabelNotConstant
  | malformedNumber (text : String)
deriving DecidableEq

namespace CompileFault

def message : CompileFault → String
  | unknownFunction name arity => "no function `" ++ name ++ s!"` takes {arity} argument(s)"
  | notAssignable symbol => "`" ++ symbol ++ "` can only be applied to a variable"
  | referenceArgument function position =>
    s!"argument {position} of `" ++ function ++ "` must be a variable"
  | duplicateCase value => "duplicate case value " ++ Shortest.text value
  | caseLabelNotConstant => "case label is not a constant"
  | malformedNumber text => "malformed numeric literal `" ++ text ++ "`"

def code : CompileFault → ErrorCode
  | unknownFunction .. => .unknownFunction
  | notAssignable .. => .notAssignable
  | referenceArgument .. => .referenceArgument
  | duplicateCase .. => .duplicateCase
  | caseLabelNotConstant => .caseLabelNotConstant
  | malformedNumber .. => .malformedNumber

/-- The remark at the place of the fault. -/
def label : CompileFault → String
  | unknownFunction .. => "unknown function"
  | notAssignable .. => "not a variable"
  | referenceArgument .. => "expected a variable"
  | duplicateCase .. => "duplicate case"
  | caseLabelNotConstant => "not a constant"
  | malformedNumber .. => "malformed literal"

end CompileFault

/-- Something else to say about a fault, at a place of its own or at none. -/
structure Note where
  message : String
  span? : Option Span
deriving DecidableEq, Repr

/-- A refused tree: the fault, the node that has it, and notes. -/
structure CompileError where
  fault : CompileFault
  span : Span
  notes : List Note
deriving DecidableEq

/-- A message followed by the offset of its place. -/
def messageAt (message : String) (span : Span) : String :=
  message ++ s!" (at offset {span.start.toNat})"

namespace CompileError

def message (e : CompileError) : String := messageAt e.fault.message e.span

/-- Notes with a place become labels, the others stay notes. -/
def diagnostic (e : CompileError) : Diagnostic where
  code := e.fault.code
  severity := .error
  message := e.fault.message
  labels := ⟨e.span, e.fault.label, true⟩ ::
    e.notes.filterMap fun note => note.span?.map fun span => ⟨span, note.message, false⟩
  notes := e.notes.filterMap fun note => if note.span?.isNone then some note.message else none

end CompileError

/-- Why a run failed. -/
inductive RunFault where
  | uninitializedVariable (name : String)
  | constantReassignment (name : String)
  | continueOutsideLoop
  | breakOutsideLoop
  | noValue
  | functionFailed (name message : String)
  | registryMismatch
  | inputArity (expected found : Nat)
  | timeout
  | iterationLimit (limit : Nat)
deriving DecidableEq, Repr

/-- How a host tells failed runs apart. -/
inductive ErrorCategory where
  | evaluation
  | timeout
  | iterationLimit
deriving DecidableEq, Repr

namespace ErrorCategory

def label : ErrorCategory → String
  | evaluation => "Evaluation"
  | timeout => "Timeout"
  | iterationLimit => "IterationLimit"

end ErrorCategory

namespace RunFault

def message : RunFault → String
  | uninitializedVariable name => "variable `" ++ name ++ "` is not initialized"
  | constantReassignment name =>
    "`" ++ name ++ "` is a constant and cannot be used as a variable"
  | continueOutsideLoop => "`continue` used outside of a loop"
  | breakOutsideLoop => "`break` used outside of a loop or switch"
  | noValue => "expression produced no value"
  | functionFailed name message => "function `" ++ name ++ "` failed: " ++ message
  | registryMismatch => "expression was compiled against a different function registry"
  | inputArity expected found => s!"row has {found} value(s) but {expected} input(s) are bound"
  | timeout => "calculations exceeded time limit"
  | iterationLimit limit => s!"loop exceeded {limit} iterations"

def code : RunFault → ErrorCode
  | uninitializedVariable .. => .uninitializedVariable
  | constantReassignment .. => .constantReassignment
  | continueOutsideLoop => .continueOutsideLoop
  | breakOutsideLoop => .breakOutsideLoop
  | noValue => .noValue
  | functionFailed .. => .functionFailed
  | registryMismatch => .registryMismatch
  | inputArity .. => .inputArity
  | timeout => .timeout
  | iterationLimit .. => .iterationLimit

def category : RunFault → ErrorCategory
  | timeout => .timeout
  | iterationLimit .. => .iterationLimit
  | _ => .evaluation

/-- The remark at the place of the fault. -/
def label : RunFault → String
  | uninitializedVariable .. => "read before assignment"
  | constantReassignment .. => "assigned here"
  | timeout | iterationLimit .. => "in this loop"
  | functionFailed .. => "in this call"
  | _ => "here"

/-- Advice that goes with the fault, wherever it happened. -/
def advice? : RunFault → Option String
  | uninitializedVariable name => some ("assign `" ++ name ++ "` before reading it")
  | iterationLimit limit => some s!"a single loop may run at most {limit} iterations"
  | _ => none

end RunFault

/-- A failed run: the fault and, if a node is to blame, its place. -/
structure RunError where
  fault : RunFault
  span? : Option Span
deriving DecidableEq, Repr

namespace RunError

def message (e : RunError) : String :=
  match e.span? with
  | some span => messageAt e.fault.message span
  | none => e.fault.message

def category (e : RunError) : ErrorCategory := e.fault.category

def isTimeout (e : RunError) : Bool := e.fault == .timeout

/-- The script may be right, it only ran too long. -/
def isResourceExhausted (e : RunError) : Bool := e.category != .evaluation

def diagnostic (e : RunError) : Diagnostic where
  code := e.fault.code
  severity := .error
  message := e.fault.message
  labels := e.span?.toList.map fun span => ⟨span, e.fault.label, true⟩
  notes := e.fault.advice?.toList

end RunError

/-- A failure of either phase. -/
inductive ScriptError where
  | compile (error : CompileError)
  | run (error : RunError)
deriving DecidableEq

namespace ScriptError

def message : ScriptError → String
  | compile e => e.message
  | run e => e.message

end ScriptError

end ShapeScript
