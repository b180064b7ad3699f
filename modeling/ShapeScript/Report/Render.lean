import ShapeScript.Report.Diagnostic
import ShapeScript.Report.LineTable

/-!
Diagnostics as text, with or without the source they point into.

With the source, each label shows its line behind a gutter for the line number, and below it a row
of markers under the labelled characters: `^` for the place of the error, `-` for related places.
Labels that cannot be marked leave the whole diagnostic without a rendering.
-/

namespace ShapeScript.Diagnostic

/-- The header, then offsets and notes on lines of their own. -/
def renderPlain (d : Diagnostic) : String :=
  d.header
    ++ String.join (d.labels.map fun l => "\n  at " ++ l.span.text ++ ": " ++ l.message)
    ++ String.join (d.notes.map fun note => "\n  = note: " ++ note)

/-- A row of spaces. -/
def blanks (n : Nat) : String := String.ofList (List.replicate n ' ')

/-- Digits that line numbers take in the gutter: as many as the longest of them. -/
def gutterWidth (table : LineTable) (labels : List Label) : Nat :=
  match labels.map fun l => (toString (table.lineOf l.span.start.toNat)).length with
  | [] => 1
  | first :: rest => rest.foldl max first

/-- The most columns that can stand before markers. -/
def widestIndent : Nat := 65535

/-- How many columns stand before the markers of a label, and how many markers there are: one for
each byte of the span, but at least one and no more than there are characters left in the line.
There are none for a reversed span, nor for one too far to the right, whose column may even have come
out as zero. -/
def markerExtent? (table : LineTable) (source : List Char) (label : Label) : Option (Nat × Nat) :=
  let (line, column) := table.position source label.span.start.toNat
  let text := table.lineText source line
  let pad := column - 1
  match label.span.length? with
  | some bytes =>
    if 0 < column ∧ pad ≤ widestIndent then
      some (pad, min (max bytes.toNat 1) (max (text.length - pad) 1))
    else none
  | none => none

/-- The three lines of a label: a blank one, the source line, and the markers with the message. -/
def renderLabel? (table : LineTable) (source : List Char) (gutter : Nat) (label : Label) :
    Option String := do
  let (pad, width) ← markerExtent? table source label
  let (line, _) := table.position source label.span.start.toNat
  let number := toString line
  let text := String.ofList (table.lineText source line)
  let markers := String.ofList (List.replicate width (if label.isPrimary then '^' else '-'))
  return blanks gutter ++ " |\n"
    ++ blanks (gutter - number.length) ++ number ++ " | " ++ text ++ "\n"
    ++ blanks gutter ++ " | " ++ blanks pad ++ markers ++ " " ++ label.message ++ "\n"

/-- The line with the place of the first primary label; nothing without such a label. -/
def placeLine (d : Diagnostic) (table : LineTable) (source : List Char) (gutter : Nat) : String :=
  match d.primarySpan? with
  | some span =>
    let (line, column) := table.position source span.start.toNat
    blanks gutter ++ s!"--> {line}:{column}\n"
  | none => ""

def noteLines (d : Diagnostic) (gutter : Nat) : String :=
  String.join (d.notes.map fun note => blanks gutter ++ " = note: " ++ note ++ "\n")

/-- The header, the place of the first primary label, every label, and the notes. -/
def render? (d : Diagnostic) (source : String) : Option String := do
  let chars := source.toList
  let table := LineTable.build chars
  let gutter := gutterWidth table d.labels
  let blocks ← d.labels.mapM (renderLabel? table chars gutter)
  return d.header ++ "\n" ++ d.placeLine table chars gutter ++ String.join blocks ++ d.noteLines gutter

end ShapeScript.Diagnostic
