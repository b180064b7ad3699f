import ShapeScript.Number.Shortest
import ShapeScript.Number.Literal
import ShapeScript.Number.Integer
import ShapeScript.Number.Nearness
import ShapeScript.Number.Factorial
import ShapeScript.Text.Quoted
import ShapeScript.Syntax.Tree
import ShapeScript.Syntax.Builder
import ShapeScript.Syntax.Listing
import ShapeScript.Report.Render
import ShapeScript.Report.Failure
import ShapeScript.Function.Catalogue
import ShapeScript.Function.Sample
import ShapeScript.Function.Listing
import ShapeScript.Environment.Basic
import ShapeScript.Expression
import ShapeScript.Walk
import ShapeScript.Nesting
import ShapeScript.Proofs.Number.Equality
import ShapeScript.Proofs.Syntax.Parts
import ShapeScript.Proofs.Syntax.Interner
import ShapeScript.Proofs.Syntax.Building
import ShapeScript.Proofs.Function.Extension
import ShapeScript.Proofs.Environment.Slots
import ShapeScript.Proofs.Compile.Success
import ShapeScript.Proofs.Compile.Parts
import ShapeScript.Proofs.Compile.Folding
import ShapeScript.Proofs.Compile.Folds
import ShapeScript.Proofs.Compile.Meaning
import ShapeScript.Proofs.Compile.Validity
import ShapeScript.Proofs.Run.InStep
import ShapeScript.Proofs.Run.Sequence
import ShapeScript.Proofs.Run.Ceiling
import ShapeScript.Proofs.Run.Calls
import ShapeScript.Proofs.Compile.Renaming
import ShapeScript.Proofs.Walk.Roles
import ShapeScript.Proofs.Walk.InStep
import ShapeScript.Proofs.Walk.Ownership
import ShapeScript.Proofs.Walk.Switch
import ShapeScript.Proofs.Expression.Frame
import ShapeScript.Proofs.Expression.Dependency
import ShapeScript.Proofs.Expression.Limits
import ShapeScript.Proofs.Expression.Blame
import ShapeScript.Proofs.Expression.Calls
import ShapeScript.Proofs.Expression.Workers
import ShapeScript.Proofs.Expression.Batch
import ShapeScript.Proofs.Expression.Numbering
import ShapeScript.Proofs.Expression.Statistics
import ShapeScript.Proofs.Expression.Numbers
import ShapeScript.Proofs.Function.Arities
import ShapeScript.Proofs.Compile.Refusal
import ShapeScript.Proofs.Walk.Break
import ShapeScript.Proofs.Number.Whole
import ShapeScript.Proofs.Run.Counting
import ShapeScript.Proofs.Walk.Counting
import ShapeScript.Proofs.Compile.Operands
import ShapeScript.Proofs.Number.Value
import ShapeScript.Proofs.Number.Rounding
import ShapeScript.Proofs.Number.Decimal
import ShapeScript.Proofs.Number.Shortest
import ShapeScript.Proofs.Number.Reading
import ShapeScript.Proofs.Number.Nearness
import ShapeScript.Proofs.Function.History
import ShapeScript.Proofs.Number.Shifts
import ShapeScript.Proofs.Syntax.Sharing
import ShapeScript.Proofs.Syntax.Handles
import ShapeScript.Proofs.Syntax.Forms
import ShapeScript.Proofs.Syntax.Storing
import ShapeScript.Proofs.Syntax.Acyclic
import ShapeScript.Proofs.Report.Bytes
import ShapeScript.Proofs.Report.Lines
import ShapeScript.Proofs.Report.LineTexts
import ShapeScript.Proofs.Report.Markers
