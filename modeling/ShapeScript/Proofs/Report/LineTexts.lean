import Mathlib.Data.List.DropRight
import ShapeScript.Proofs.Report.Lines

/-!
# Texts of lines

A table has a line for each of the pieces between newlines, and the text of a line is its piece
without the carriage returns at its end (`LineTable.build_parts`). So nothing but these is lost, and
a source without them is the texts of its lines, joined by newlines.
-/

namespace ShapeScript

open Bytes

/-! ## Pieces -/

namespace Bytes

variable {source : List Char} {i : Nat} {piece : List Char}

theorem length_splitOn_newline (source : List Char) :
    (source.splitOn '\n').length = 1 + source.count '\n' := by
  induction source with
  | nil => rfl
  | cons c rest ih =>
    rw [List.splitOn_cons_eq_if_modifyHead, List.count_cons]
    split
    next ends => rw [List.length_cons, ih, Nat.add_assoc]
    next inside => rw [List.length_modifyHead, ih, Nat.add_zero]

theorem exists_getElem?_splitOn_newline (le : i ≤ source.count '\n') :
    ∃ piece, (source.splitOn '\n')[i]? = some piece := by
  refine ⟨_, List.getElem?_eq_getElem ?_⟩
  rw [length_splitOn_newline]
  omega

/-- In front of a piece are whole lines, as many as pieces, and behind it the next newline or
nothing. -/
theorem exists_split_of_getElem?_splitOn (held : (source.splitOn '\n')[i]? = some piece) :
    ∃ before after, source = before ++ piece ++ after ∧ WholeLines before ∧
      before.count '\n' = i ∧ '\n' ∉ piece ∧ (after = [] ∨ ∃ rest, after = '\n' :: rest) := by
  induction source generalizing i piece with
  | nil =>
    rw [List.splitOn_nil, List.getElem?_singleton] at held
    split at held
    next first =>
      cases held
      exact ⟨[], [], rfl, .inl rfl, first.symm, nofun, .inl rfl⟩
    next => cases held
  | cons c rest ih =>
    rw [List.splitOn_cons_eq_if_modifyHead] at held
    by_cases ends : c = '\n'
    · subst ends
      rw [if_pos (beq_self_eq_true _)] at held
      cases i with
      | zero =>
        cases held
        exact ⟨[], '\n' :: rest, rfl, .inl rfl, rfl, nofun, .inr ⟨rest, rfl⟩⟩
      | succ i =>
        obtain ⟨before, after, rfl, whole, rfl, unbroken, stop⟩ := ih held
        refine ⟨'\n' :: before, after, rfl, .inr ?_, List.count_cons_self, unbroken, stop⟩
        rcases whole with rfl | ⟨earlier, rfl⟩
        · exact ⟨[], rfl⟩
        · exact ⟨'\n' :: earlier, rfl⟩
    · rw [if_neg (by simpa using ends)] at held
      cases i with
      | zero =>
        -- the first piece grows by the character
        rw [List.getElem?_modifyHead_zero] at held
        obtain ⟨shorter, first, rfl⟩ := Option.map_eq_some_iff.mp held
        obtain ⟨before, after, rfl, rfl | ⟨earlier, rfl⟩, none, unbroken, stop⟩ := ih first
        · exact ⟨[], after, rfl, .inl rfl, rfl,
            List.not_mem_cons_of_ne_of_not_mem (Ne.symm ends) unbroken, stop⟩
        · rw [List.count_append, List.count_singleton_self] at none
          cases none
      | succ i =>
        rw [List.getElem?_modifyHead_succ] at held
        obtain ⟨before, after, rfl, rfl | ⟨earlier, rfl⟩, counted, unbroken, stop⟩ := ih held
        · cases counted
        · exact ⟨c :: (earlier ++ ['\n']), after, rfl, .inr ⟨c :: earlier, rfl⟩,
            (List.count_cons_of_ne ends).trans counted, unbroken, stop⟩

end Bytes

/-! ## Texts -/

namespace LineTable

/-- What is left of a piece without the carriage returns at its end. -/
structure Strips (piece text : List Char) : Prop where
  split : ∃ returns, piece = text ++ List.replicate returns '\r'
  ends : text.getLast? ≠ some '\r'

theorem strips_rdropWhile (piece : List Char) : Strips piece (piece.rdropWhile (· == '\r')) where
  split := by
    have returns : ∀ c ∈ piece.rtakeWhile (· == '\r'), c = '\r' := by
      intro c mem
      exact beq_iff_eq.mp (List.mem_rtakeWhile_imp (p := (· == '\r')) mem)
    refine ⟨(piece.rtakeWhile (· == '\r')).length, ?_⟩
    rw [← List.eq_replicate_of_mem returns, List.rdropWhile_append_rtakeWhile]
  ends := by
    intro last
    obtain ⟨ne, last⟩ := List.mem_getLast?_eq_getLast last
    exact List.rdropWhile_last_not (· == '\r') piece ne (beq_iff_eq.mpr last.symm)

theorem Strips.eq_of_notMem {piece text : List Char} (strips : Strips piece text)
    (none : '\r' ∉ piece) : text = piece := by
  obtain ⟨returns, split⟩ := strips.split
  cases returns with
  | zero => rw [split, List.replicate_zero, List.append_nil]
  | succ n => exact absurd (by simp [split]) none

/-- The texts of all lines, in order. -/
def lineTexts (t : LineTable) (source : List Char) : List (List Char) :=
  (List.range' 1 t.lineCount).map (t.lineText source)

/-- The lines of a table are the parts of its source. -/
structure Parts (t : LineTable) (source : List Char) : Prop where
  lineCount : t.lineCount = 1 + source.count '\n'
  pieces : (source.splitOn '\n').length = t.lineCount
  lineText : ∀ {line}, 1 ≤ line → line ≤ t.lineCount → ∃ piece,
    (source.splitOn '\n')[line - 1]? = some piece ∧ Strips piece (t.lineText source line)
  /-- Without carriage returns, all that is lost are the newlines between lines. -/
  joined : '\r' ∉ source → ['\n'].intercalate (t.lineTexts source) = source
  /-- The starts of lines have room in their words. -/
  fitsWords : size source < 4294967296 → ∀ start ∈ t.starts, start < 4294967296

variable {source : List Char}

theorem lineCount_build (source : List Char) : (build source).lineCount = 1 + source.count '\n' :=
  size_starts_build source

theorem strips_lineText_build {i : Nat} {piece : List Char}
    (held : (source.splitOn '\n')[i]? = some piece) :
    Strips piece ((build source).lineText source (1 + i)) := by
  obtain ⟨before, after, rfl, whole, rfl, unbroken, ends⟩ := exists_split_of_getElem?_splitOn held
  rw [lineText_build whole unbroken ends]
  exact strips_rdropWhile piece

theorem notMem_of_getElem?_splitOn {c : Char} {i : Nat} {piece : List Char} (none : c ∉ source)
    (held : (source.splitOn '\n')[i]? = some piece) : c ∉ piece := by
  obtain ⟨before, after, rfl, -⟩ := exists_split_of_getElem?_splitOn held
  exact fun mem => none (List.mem_append_left _ (List.mem_append_right _ mem))

/-- Without carriage returns, the texts are the pieces. -/
theorem lineTexts_build (none : '\r' ∉ source) :
    (build source).lineTexts source = source.splitOn '\n' := by
  have count : (build source).lineCount = (source.splitOn '\n').length := by
    rw [lineCount_build, length_splitOn_newline]
  refine List.ext_getElem (by rw [lineTexts, List.length_map, List.length_range', count]) ?_
  intro i _ lt
  have held := List.getElem?_eq_getElem lt
  simp only [lineTexts, List.getElem_map, List.getElem_range', Nat.one_mul]
  exact (strips_lineText_build held).eq_of_notMem (notMem_of_getElem?_splitOn none held)

/-- The lines of a table that was built from a source are its pieces between newlines. -/
theorem build_parts (source : List Char) : (build source).Parts source where
  lineCount := lineCount_build source
  pieces := by rw [length_splitOn_newline, lineCount_build]
  lineText := by
    intro line pos le
    rw [lineCount_build] at le
    have inside : line - 1 ≤ source.count '\n' := by omega
    obtain ⟨piece, held⟩ := exists_getElem?_splitOn_newline inside
    refine ⟨piece, held, ?_⟩
    have strips := strips_lineText_build held
    rwa [Nat.add_sub_cancel' pos] at strips
  joined := by
    intro none
    rw [lineTexts_build none, List.intercalate_splitOn]
  fitsWords room start mem := Nat.lt_of_le_of_lt (le_size_of_mem_starts mem) room

/-- A character of two bytes, an empty line, and a newline at the end of the source. -/
theorem build_parts_of_blank_lines :
    let source := "θ\n\nb\n".toList
    let texts := (build source).lineTexts source
    '\r' ∉ source ∧ (build source).lineCount = 4 ∧ texts = [['θ'], [], ['b'], []] ∧
      ['\n'].intercalate texts = source := by
  intro source texts
  have parts := build_parts source
  have none : '\r' ∉ source := by decide
  have lines : (build source).lineCount = 1 + source.count '\n' := parts.lineCount
  refine ⟨none, lines, ?_, parts.joined none⟩
  decide +kernel

/-- All carriage returns in front of a newline go, and others stay. -/
example : (build "x\r\r\n\ra\r".toList).lineTexts "x\r\r\n\ra\r".toList =
    [['x'], ['\r', 'a']] := by
  decide +kernel

end LineTable
end ShapeScript
