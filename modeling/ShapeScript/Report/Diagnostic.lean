import ShapeScript.Report.Code
import ShapeScript.Syntax.Span

/-!
Diagnostics: what went wrong, where, and what else there is to say.
-/

namespace ShapeScript

inductive Severity where
  | error
  | warning
  | note
deriving DecidableEq, Repr

namespace Severity

def all : List Severity := [error, warning, note]

def text : Severity → String
  | error => "error"
  | warning => "warning"
  | note => "note"

def ofText? (s : String) : Option Severity := all.find? (·.text == s)

end Severity

/-- A place in the source and a remark on it. -/
structure Label where
  span : Span
  message : String
  /-- Whether the error happened here; other labels show what it is related to. -/
  isPrimary : Bool
deriving DecidableEq, Repr

structure Diagnostic where
  code : ErrorCode
  severity : Severity
  message : String
  labels : List Label
  notes : List String
deriving DecidableEq, Repr

namespace Diagnostic

def isError (d : Diagnostic) : Bool := d.severity == .error

/-- The place of the first primary label. -/
def primarySpan? (d : Diagnostic) : Option Span :=
  (d.labels.find? (·.isPrimary)).map (·.span)

/-- Severity, code and message in one line. -/
def header (d : Diagnostic) : String :=
  d.severity.text ++ "[" ++ d.code.text ++ "]: " ++ d.message

end Diagnostic

end ShapeScript
