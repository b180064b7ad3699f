import Mathlib.Data.List.Forall2
import ShapeScript.Proofs.Report.Lines
import ShapeScript.Report.Render

/-!
# Markers under labelled text

Markers begin below the first labelled character, as padding counts characters. How many there are
goes by bytes, though: behind labelled characters of several bytes they run on below what follows, as
far as the line goes (`Diagnostic.render_marks`). So they stand below the labelled characters alone
exactly if these have a byte each or end the line (`Label.Place.marks_eq_iff`).
-/

namespace ShapeScript

open Bytes Diagnostic

/-- A source, parted at the ends of a line and of what is labelled in it. Carriage returns in front of
the newline are no text of the line. -/
structure Label.Place where
  earlier : List Char
  left : List Char
  marked : List Char
  right : List Char
  returns : Nat
  later : List Char

namespace Label.Place

variable {p : Place} {span : Span}

/-- The text of the line. -/
def text (p : Place) : List Char := p.left ++ p.marked ++ p.right

def source (p : Place) : List Char :=
  p.earlier ++ (p.text ++ List.replicate p.returns '\r') ++ p.later

/-- The number of the line. -/
def number (p : Place) : Nat := 1 + p.earlier.count '\n'

/-- The span covers what is labelled, within the text of one line. -/
structure Holds (p : Place) (span : Span) : Prop where
  whole : WholeLines p.earlier
  unbroken : '\n' ∉ p.text
  ends : p.text.getLast? ≠ some '\r'
  later : p.later = [] ∨ ∃ rest, p.later = '\n' :: rest
  start : span.start.toNat = size (p.earlier ++ p.left)
  stop : span.stop.toNat = size (p.earlier ++ p.left ++ p.marked)

/-- The characters above markers: the labelled ones, and one more behind them for each byte that one
of them takes beyond the first. -/
def reached (p : Place) : List Char :=
  p.marked ++ p.right.take (size p.marked - p.marked.length)

/-- How many markers there are; an empty label has one as well. -/
def marks (p : Place) : Nat := max 1 p.reached.length

/-- No labelled character takes several bytes, or the line has no more characters. -/
theorem marks_eq_iff :
    p.marks = max 1 p.marked.length ↔ size p.marked = p.marked.length ∨ p.right = [] := by
  have short := length_le_size p.marked
  rw [marks, reached, List.length_append, List.length_take, ← List.length_eq_zero_iff]
  cases empty : p.marked with
  | nil => simp [size]
  | cons c rest =>
    rw [empty] at short
    rw [List.length_cons] at short ⊢
    omega

/-- What is shown for a label: a blank line, the source line, and below it markers behind as many
spaces as there are characters left of them. -/
def block (p : Place) (label : Label) (gutter marks : Nat) : String :=
  blanks gutter ++ " |\n"
    ++ blanks (gutter - (toString p.number).length) ++ toString p.number ++ " | "
    ++ String.ofList p.text ++ "\n"
    ++ blanks gutter ++ " | " ++ blanks p.left.length
    ++ String.ofList (List.replicate marks (if label.isPrimary then '^' else '-')) ++ " "
    ++ label.message ++ "\n"

namespace Holds

variable {label : Label}

theorem position (h : p.Holds span) (short : size p.source < 4294967295) :
    (LineTable.build p.source).position p.source span.start.toNat = (p.number, 1 + p.left.length) := by
  have split : p.source = p.earlier ++ p.left ++
      (p.marked ++ p.right ++ List.replicate p.returns '\r' ++ p.later) := by
    simp only [source, text, List.append_assoc]
  have unbroken : '\n' ∉ p.left := by
    intro mem
    exact h.unbroken (List.mem_append_left _ (List.mem_append_left _ mem))
  rw [split] at short ⊢
  rw [h.start]
  refine LineTable.position_build short h.whole unbroken ?_
  rw [size_append (p.earlier ++ p.left)]
  exact (Nat.min_eq_left (Nat.le_add_right ..)).symm

theorem lineText (h : p.Holds span) :
    (LineTable.build p.source).lineText p.source p.number = p.text := by
  have unbroken : '\n' ∉ p.text ++ List.replicate p.returns '\r' := by
    refine List.not_mem_append h.unbroken fun mem => ?_
    exact absurd (List.eq_of_mem_replicate mem) (by decide)
  have kept : p.text.reverse.dropWhile (· == '\r') = p.text.reverse := by
    have ends := h.ends
    rw [← List.head?_reverse] at ends
    cases last : p.text.reverse with
    | nil => rfl
    | cons c rest =>
      rw [last] at ends
      exact List.dropWhile_cons_of_neg (by simpa using ends)
  rw [source, number, LineTable.lineText_build h.whole unbroken h.later, List.reverse_append,
    List.reverse_replicate, List.dropWhile_append_of_pos (by simp), kept, List.reverse_reverse]

theorem length? (h : p.Holds span) :
    ∃ bytes, span.length? = some bytes ∧ bytes.toNat = size p.marked := by
  have total : span.stop.toNat = span.start.toNat + size p.marked := by
    rw [h.stop, h.start, size_append (p.earlier ++ p.left)]
  have le : span.start ≤ span.stop := UInt32.le_iff_toNat_le.mpr (total ▸ Nat.le_add_right ..)
  refine ⟨span.stop - span.start, if_neg (UInt32.not_lt.mpr le), ?_⟩
  rw [UInt32.toNat_sub_of_le _ _ le, total, Nat.add_sub_cancel_left]

theorem markerExtent? (h : p.Holds label.span) (short : size p.source < 4294967295)
    (room : p.left.length ≤ widestIndent) : markerExtent? (LineTable.build p.source) p.source label = some (p.left.length, p.marks) := by
  obtain ⟨bytes, length, total⟩ := h.length?
  have rest : p.text.length - p.left.length = p.marked.length + p.right.length := by
    simp only [text, List.length_append]
    omega
  have width : min (max bytes.toNat 1) (max (p.text.length - p.left.length) 1) = p.marks := by
    -- the clamp by the rest of the line cuts the surplus of bytes and nothing else
    rw [rest, total, marks, reached, List.length_append, List.length_take]
    have short := length_le_size p.marked
    have empty : p.marked.length = 0 → size p.marked = 0 := by
      intro none
      rw [List.eq_nil_of_length_eq_zero none, size]
    omega
  have drawn : 0 < 1 + p.left.length ∧ p.left.length ≤ widestIndent :=
    ⟨Nat.add_pos_left Nat.one_pos _, room⟩
  simp only [Diagnostic.markerExtent?, h.position short, h.lineText, length, Nat.add_sub_cancel_left,
    if_pos drawn, width]

/-- What is printed for a label. -/
theorem renderLabel? (h : p.Holds label.span) (short : size p.source < 4294967295)
    (room : p.left.length ≤ widestIndent) (gutter : Nat) :
    renderLabel? (LineTable.build p.source) p.source gutter label =
      some (p.block label gutter p.marks) := by
  rw [Diagnostic.renderLabel?, h.markerExtent? short room]
  simp only [h.position short, h.lineText, Option.bind_eq_bind, Option.bind_some, Option.pure_def, block]

end Holds
end Label.Place

namespace Diagnostic

/-- The label can be drawn at all: it is not reversed and not too far to the right. -/
def Drawable (source : List Char) (label : Label) : Prop :=
  label.span.start ≤ label.span.stop ∧
    ((LineTable.build source).position source label.span.start.toNat).2 - 1 ≤ widestIndent

theorem exists_renderLabel? {source : List Char} {label : Label} (short : size source < 4294967295)
    (drawable : Drawable source label) (gutter : Nat) :
    ∃ block, renderLabel? (LineTable.build source) source gutter label = some block := by
  have ⟨upright, room⟩ := drawable
  have drawn := And.intro
    (LineTable.position_snd_pos short (.build source) label.span.start.toNat) room
  simp only [renderLabel?, markerExtent?, Span.length?, if_neg (UInt32.not_lt.mpr upright),
    if_pos drawn, Option.bind_eq_bind, Option.bind_some, Option.pure_def]
  exact ⟨_, rfl⟩

/-- Every line number has room in the gutter. -/
theorem length_le_gutterWidth {table : LineTable} {labels : List Label} {label : Label}
    (mem : label ∈ labels) :
    (toString (table.lineOf label.span.start.toNat)).length ≤ gutterWidth table labels := by
  have wide : ∀ (widths : List Nat) (first : Nat),
      first ≤ widths.foldl max first ∧ ∀ width ∈ widths, width ≤ widths.foldl max first := by
    intro widths
    induction widths with
    | nil => exact fun first => ⟨Nat.le_refl _, nofun⟩
    | cons width rest ih =>
      intro first
      have ⟨start, others⟩ := ih (max first width)
      refine ⟨Nat.le_trans (Nat.le_max_left ..) start, fun w mem => ?_⟩
      rcases List.mem_cons.mp mem with rfl | mem
      · exact Nat.le_trans (Nat.le_max_right ..) start
      · exact others w mem
  have mem := List.mem_map_of_mem (f := fun l : Label =>
    (toString (table.lineOf l.span.start.toNat)).length) mem
  rw [gutterWidth]
  split
  next none => rw [none] at mem; cases mem
  next first rest widths =>
    rw [widths] at mem
    have ⟨start, others⟩ := wide rest first
    rcases List.mem_cons.mp mem with same | mem
    · exact same ▸ start
    · exact others _ mem

/-- What is drawn for a label at its place. -/
structure Draws (gutter : Nat) (label : Label) (p : Label.Place) (block : String) : Prop where
  block : block = p.block label gutter p.marks
  number : (toString p.number).length ≤ gutter
  exact_iff : p.marks = max 1 p.marked.length ↔ size p.marked = p.marked.length ∨ p.right = []

theorem exists_draws {source : List Char} {labels : List Label} {label : Label}
    (short : size source < 4294967295) (mem : label ∈ labels) (drawable : Drawable source label) :
    let table := LineTable.build source
    let gutter := gutterWidth table labels
    ∃ block, renderLabel? table source gutter label = some block ∧
      ∀ p : Label.Place, p.source = source → p.Holds label.span → Draws gutter label p block := by
  intro table gutter
  obtain ⟨block, drawn⟩ := exists_renderLabel? short drawable gutter
  refine ⟨block, drawn, fun p split holds => ?_⟩
  subst split
  have room : p.left.length ≤ widestIndent := by
    have room := drawable.2
    rwa [holds.position short, Nat.add_sub_cancel_left] at room
  have numbered : table.lineOf label.span.start.toNat = p.number :=
    congrArg Prod.fst (holds.position short)
  refine ⟨?_, numbered ▸ length_le_gutterWidth mem, Label.Place.marks_eq_iff⟩
  exact Option.some.inj (drawn.symm.trans (holds.renderLabel? short room gutter))

private theorem exists_mapM_eq_some {α β : Type} {f : α → Option β} {R : α → β → Prop} {l : List α}
    (h : ∀ a ∈ l, ∃ b, f a = some b ∧ R a b) : ∃ bs, l.mapM f = some bs ∧ List.Forall₂ R l bs := by
  induction l with
  | nil => exact ⟨[], rfl, .nil⟩
  | cons a rest ih =>
    obtain ⟨b, made, related⟩ := h a (.head _)
    obtain ⟨bs, all, relatedAll⟩ := ih fun a mem => h a (.tail _ mem)
    refine ⟨b :: bs, ?_, .cons related relatedAll⟩
    rw [List.mapM_cons, made, all]
    rfl

/-- If all labels can be drawn, they are, in their order and each as its place says. The source is short
enough for lines and columns to have room in their words. -/
theorem render_marks (d : Diagnostic) (source : String) (short : size source.toList < 4294967295)
    (drawable : ∀ label ∈ d.labels, Drawable source.toList label) :
    let table := LineTable.build source.toList
    let gutter := gutterWidth table d.labels
    ∃ blocks, d.render? source = some (d.header ++ "\n" ++ d.placeLine table source.toList gutter ++
        String.join blocks ++ d.noteLines gutter) ∧
      List.Forall₂ (fun label block => ∀ p : Label.Place, p.source = source.toList →
        p.Holds label.span → Draws gutter label p block) d.labels blocks := by
  intro table gutter
  obtain ⟨blocks, drawn, draws⟩ :=
    exists_mapM_eq_some fun label mem => exists_draws short mem (drawable label mem)
  refine ⟨blocks, ?_, draws⟩
  simp only [render?, drawn, Option.bind_eq_bind, Option.bind_some, Option.pure_def, table, gutter]

/-- The place of a character of two bytes with others behind it. -/
def twoBytes : Label.Place := ⟨[], [], ['θ'], [' ', '=', ' ', '1'], 0, []⟩

theorem holds_twoBytes : twoBytes.Holds ⟨0, 2⟩ := by
  refine ⟨.inl rfl, by decide, by decide, .inl rfl, rfl, ?_⟩
  decide +kernel

/-- The second marker stands below the blank behind the labelled character. -/
theorem render_marks_of_two_bytes :
    let label : Label := ⟨⟨0, 2⟩, "here", true⟩
    let d : Diagnostic := ⟨.uninitializedVariable, .error, "m", [label], []⟩
    size "θ = 1".toList < 4294967295 ∧ (∀ label ∈ d.labels, Drawable "θ = 1".toList label) ∧
    d.render? "θ = 1" = some ("error[E2001]: m\n --> 1:1\n" ++ twoBytes.block label 1 2) := by
  intro label d
  have drawable : ∀ label ∈ d.labels, Drawable "θ = 1".toList label := by
    intro l mem
    cases List.mem_singleton.mp mem
    exact ⟨by decide, by decide +kernel⟩
  have short : size "θ = 1".toList < 4294967295 := by decide +kernel
  obtain ⟨blocks, drawn, draws⟩ := render_marks d "θ = 1" short drawable
  have width : gutterWidth (LineTable.build "θ = 1".toList) d.labels = 1 := by decide +kernel
  have place : d.placeLine (LineTable.build "θ = 1".toList) "θ = 1".toList 1 = " --> 1:1\n" := by
    decide +kernel
  rw [width] at drawn draws
  rw [place] at drawn
  cases draws with
  | cons first rest =>
    cases rest
    have same := (first twoBytes rfl holds_twoBytes).block
    have marks : twoBytes.marks = 2 := by decide +kernel
    rw [marks] at same
    rw [drawn, same]
    refine ⟨short, drawable, congrArg some ?_⟩
    decide +kernel

/-- With one marker for the one labelled character the block is not part of what is printed: there are
two. -/
theorem render_overmarks :
    let label : Label := ⟨⟨0, 2⟩, "here", true⟩
    let d : Diagnostic := ⟨.uninitializedVariable, .error, "m", [label], []⟩
    let out := "error[E2001]: m\n --> 1:1\n  |\n1 | θ = 1\n  | ^^ here\n"
    twoBytes.source = "θ = 1".toList ∧ twoBytes.Holds label.span ∧ d.render? "θ = 1" = some out ∧
      ¬(twoBytes.block label 1 (max 1 twoBytes.marked.length)).toList <:+: out.toList := by
  intro label d out
  refine ⟨rfl, holds_twoBytes, ?_, ?_⟩
  · decide +kernel
  · decide +kernel

end Diagnostic
end ShapeScript
