import ShapeScript.Proofs.Report.Bytes

/-!
# Lines and columns

A line found by halving is one more than the number of newlines in front of the offset, and the
column counts characters from where this line starts (`LineTable.build_locates`). Halving keeps all
entries up to the offset on its left and all others on its right (`LineTable.narrow_spec`), and the
entries are as many as the newlines (`LineTable.countP_startsFrom`).

All this holds of sources with fewer than 2^32 - 1 bytes. One more, and the last line or column has no
room in its word (`LineTable.position_overflows`).
-/

namespace ShapeScript.LineTable

/-! ## Halving -/

section
variable {starts : Array Nat} {offset base length : Nat}

theorem entry_eq_getElem {place : Nat} (lt : place < starts.size) :
    entry starts place = starts[place] := by
  rw [entry, Array.getD_eq_getD_getElem?, Array.getElem?_eq_getElem lt, Option.getD_some]

/-- Entries further to the right are not smaller. -/
def Ascending (starts : Array Nat) : Prop :=
  ∀ ⦃i j⦄, i ≤ j → j < starts.size → entry starts i ≤ entry starts j

/-- Among the places from `base` on, everything behind the place that is left lies behind the offset,
and the place itself does not, unless it is the first one. -/
theorem narrow_spec (ascending : Ascending starts) (offset : Nat) (pos : 0 < length)
    (inside : base + length ≤ starts.size) :
    let place := narrow starts offset base length
    base ≤ place ∧ place < base + length ∧ (place = base ∨ entry starts place ≤ offset) ∧
      ∀ i, place < i → i < base + length → offset < entry starts i := by
  fun_induction narrow starts offset base length with
  | case1 base length short =>
    exact ⟨Nat.le_refl _, by omega, .inl rfl, fun i behind before => by omega⟩
  | case2 base length long middle rest le ih =>
    obtain ⟨lower, upper, reached, behind⟩ := ih (by omega) (by omega)
    refine ⟨by omega, by omega, .inr ?_, fun i after before => behind i after (by omega)⟩
    rcases reached with same | le'
    · exact same.symm ▸ le
    · exact le'
  | case3 base length long middle rest gt ih =>
    obtain ⟨lower, upper, reached, behind⟩ := ih (by omega) (by omega)
    refine ⟨lower, by omega, reached, fun i after before => ?_⟩
    -- what the left half leaves out begins no further left than the middle
    by_cases left : i < base + rest
    · exact behind i after left
    · exact Nat.lt_of_lt_of_le (Nat.lt_of_not_le gt) (ascending (by omega) (by omega))

/-- The line of an offset starts at or before it, and all later ones start behind it. -/
theorem placeOf_spec (ascending : Ascending starts) (pos : 0 < starts.size)
    (first : entry starts 0 ≤ offset) :
    let place := placeOf ⟨starts⟩ offset
    place < starts.size ∧ entry starts place ≤ offset ∧
      ∀ i, place < i → i < starts.size → offset < entry starts i := by
  obtain ⟨-, inside, reached, behind⟩ :=
    narrow_spec ascending offset pos (Nat.le_of_eq (Nat.zero_add _))
  rw [Nat.zero_add] at inside behind
  generalize found : narrow starts offset 0 starts.size = place at inside reached behind
  have le : entry starts place ≤ offset := by
    rcases reached with rfl | le
    · exact first
    · exact le
  have same : placeOf ⟨starts⟩ offset = place := by
    rw [placeOf, search, if_neg (Nat.ne_of_gt pos), found]
    rcases Nat.eq_or_lt_of_le le with same | lt
    · simp only [if_pos same]
    · simp only [if_neg (Nat.ne_of_lt lt), if_pos lt, Nat.add_sub_cancel]
  rw [same]
  exact ⟨inside, le, behind⟩

/-- So many lines start at or before the offset. -/
theorem placeOf_eq_countP (ascending : Ascending starts) (pos : 0 < starts.size)
    (first : entry starts 0 ≤ offset) :
    placeOf ⟨starts⟩ offset + 1 = starts.toList.countP (· ≤ offset) := by
  obtain ⟨inside, le, behind⟩ := placeOf_spec ascending pos first
  generalize placeOf ⟨starts⟩ offset = place at inside le behind
  have read : ∀ {i} (lt : i < starts.toList.length), starts.toList[i] = entry starts i := by
    intro i lt
    rw [Array.getElem_toList, entry_eq_getElem lt]
  have upTo : (starts.toList.take (place + 1)).countP (· ≤ offset) = place + 1 := by
    rw [List.countP_eq_length.mpr, List.length_take_of_le inside]
    intro x mem
    obtain ⟨i, lt, rfl⟩ := List.mem_iff_getElem.mp mem
    rw [List.length_take_of_le inside] at lt
    rw [List.getElem_take, read]
    exact decide_eq_true (Nat.le_trans (ascending (Nat.le_of_lt_succ lt) inside) le)
  have others : (starts.toList.drop (place + 1)).countP (· ≤ offset) = 0 := by
    rw [List.countP_eq_zero]
    intro x mem
    obtain ⟨i, lt, rfl⟩ := List.mem_iff_getElem.mp mem
    rw [List.length_drop] at lt
    rw [List.getElem_drop, read, decide_eq_true_iff]
    exact Nat.not_le_of_lt (behind _ (by omega) (by rw [← Array.length_toList]; omega))
  rw [← List.take_append_drop (place + 1) starts.toList, List.countP_append, upTo, others]

end

/-! ## Starts of lines -/

theorem startsFrom_append (offset : Nat) (bytes bytes' : List UInt8) :
    startsFrom offset (bytes ++ bytes') =
      startsFrom offset bytes ++ startsFrom (offset + bytes.length) bytes' := by
  induction bytes generalizing offset with
  | nil => rfl
  | cons byte rest ih =>
    have shift : offset + 1 + rest.length = offset + (rest.length + 1) := by omega
    rw [List.cons_append, startsFrom, startsFrom, ih, List.length_cons, shift]
    split
    · rfl
    · rfl

theorem length_startsFrom (offset : Nat) (bytes : List UInt8) :
    (startsFrom offset bytes).length = bytes.count newline := by
  induction bytes generalizing offset with
  | nil => rfl
  | cons byte rest ih =>
    rw [startsFrom, List.count_cons]
    split
    next same => rw [List.length_cons, ih, if_pos (by simpa using same)]
    next other => rw [ih, if_neg (by simpa using other), Nat.add_zero]

theorem bounds_of_mem_startsFrom {offset start : Nat} {bytes : List UInt8}
    (mem : start ∈ startsFrom offset bytes) : offset < start ∧ start ≤ offset + bytes.length := by
  induction bytes generalizing offset with
  | nil => cases mem
  | cons byte rest ih =>
    rw [startsFrom] at mem
    rw [List.length_cons]
    have later : start ∈ startsFrom (offset + 1) rest →
        offset < start ∧ start ≤ offset + (rest.length + 1) := by
      intro mem
      have ⟨lower, upper⟩ := ih mem
      omega
    split at mem
    · rcases List.mem_cons.mp mem with rfl | mem
      · omega
      · exact later mem
    · exact later mem

theorem pairwise_startsFrom (offset : Nat) (bytes : List UInt8) :
    (startsFrom offset bytes).Pairwise (· < ·) := by
  induction bytes generalizing offset with
  | nil => exact .nil
  | cons byte rest ih =>
    rw [startsFrom]
    split
    · exact .cons (fun start mem => (bounds_of_mem_startsFrom mem).1) (ih _)
    · exact ih _

/-- As many lines start up to `n` bytes behind the offset as there are newlines before. -/
theorem countP_startsFrom (offset n : Nat) (bytes : List UInt8) :
    (startsFrom offset bytes).countP (· ≤ offset + n) = (bytes.take n).count newline := by
  induction bytes generalizing offset n with
  | nil => rw [List.take_nil]; rfl
  | cons byte rest ih =>
    cases n with
    | zero =>
      rw [List.take_zero, List.count_nil, List.countP_eq_zero]
      intro start mem
      have lower := (bounds_of_mem_startsFrom mem).1
      rw [decide_eq_true_iff]
      omega
    | succ n =>
      have shift : offset + (n + 1) = offset + 1 + n := by omega
      rw [List.take_succ_cons, List.count_cons, startsFrom, ← ih (offset + 1), shift]
      split
      next same =>
        rw [List.countP_cons, if_pos (by simp), if_pos (by simpa using same)]
      next other => rw [if_neg (by simpa using other)]; rfl

section
variable (source : List Char)

theorem ascending_build : Ascending (build source).starts := by
  intro i j le lt
  have sorted : ((build source).starts.toList).Pairwise (· < ·) :=
    .cons (fun start mem => (bounds_of_mem_startsFrom mem).1) (pairwise_startsFrom 0 _)
  rcases Nat.eq_or_lt_of_le le with rfl | less
  · exact Nat.le_refl _
  · have lt' : i < (build source).starts.size := Nat.lt_trans less lt
    rw [entry_eq_getElem lt, entry_eq_getElem lt', ← Array.getElem_toList, ← Array.getElem_toList]
    exact Nat.le_of_lt (List.pairwise_iff_getElem.mp sorted i j lt' lt less)

theorem size_starts_build_pos : 0 < (build source).starts.size := by
  rw [build, List.size_toArray]
  exact Nat.succ_pos _

theorem ordinal_of_lt {others : Nat} (lt : others < 4294967295) : ordinal others = 1 + others := by
  have exact : others.toUInt32.toNat = others :=
    UInt32.toNat_ofNat_of_lt' (Nat.lt_trans lt (by decide))
  rw [ordinal, UInt32.toNat_add, exact, Nat.add_comm]
  exact Nat.mod_eq_of_lt (Nat.add_lt_add_left lt 1)

/-- As many lines come before that of an offset as there are newlines in front of it. -/
theorem placeOf_build (offset : Nat) :
    (build source).placeOf offset = ((Bytes.encode source).take offset).count newline := by
  have first : entry (build source).starts 0 ≤ offset := Nat.zero_le offset
  have counted :=
    placeOf_eq_countP (ascending_build source) (size_starts_build_pos source) first
  have rest := countP_startsFrom 0 offset (Bytes.encode source)
  rw [Nat.zero_add] at rest
  rw [← rest]
  exact Nat.succ_inj.mp (counted.trans (List.countP_cons_of_pos (by simp)))

end

/-! ## Positions -/

open Bytes

variable {before line after : List Char} {offset : Nat}

/-- The entry behind those of whole lines is where they end. -/
theorem getElem?_starts_build (whole : WholeLines before) (rest : List Char) :
    (build (before ++ rest)).starts[before.count '\n']? = some (size before) := by
  rcases whole with rfl | ⟨earlier, rfl⟩
  · rfl
  · have bytes : encode (earlier ++ ['\n'] ++ rest) = encode earlier ++ newline :: encode rest := by
      rw [encode_append, encode_append, List.append_assoc]
      rfl
    have starts : (build (earlier ++ ['\n'] ++ rest)).starts.toList =
        (0 :: startsFrom 0 (encode earlier)) ++ (size earlier + 1) ::
          startsFrom (size earlier + 1) (encode rest) := by
      rw [build, bytes, startsFrom_append, startsFrom, if_pos rfl, Nat.zero_add, length_encode]
      rfl
    have place : (earlier ++ ['\n']).count '\n' = (0 :: startsFrom 0 (encode earlier)).length := by
      rw [List.length_cons, length_startsFrom, count_newline_encode, List.count_append]
      rfl
    rw [← Array.getElem?_toList, starts, place, List.getElem?_append_right (Nat.le_refl _),
      Nat.sub_self, size_append]
    rfl

theorem lineStart_build (whole : WholeLines before) (rest : List Char) :
    (build (before ++ rest)).lineStart (1 + before.count '\n') = size before := by
  rw [lineStart, Nat.add_sub_cancel_left, entry, Array.getD_eq_getD_getElem?,
    getElem?_starts_build whole, Option.getD_some]

theorem size_starts_build (source : List Char) :
    (build source).starts.size = 1 + source.count '\n' := by
  rw [build, List.size_toArray, List.length_cons, length_startsFrom, count_newline_encode,
    Nat.add_comm]

theorem lineStop_build (unbroken : '\n' ∉ line)
    (ends : after = [] ∨ ∃ rest, after = '\n' :: rest) :
    (build (before ++ line ++ after)).lineStop (before ++ line ++ after) (1 + before.count '\n') =
      size (before ++ line) := by
  rw [lineStop]
  rcases ends with rfl | ⟨rest, rfl⟩
  · have last : (build (before ++ line ++ [])).starts[1 + before.count '\n']? = none := by
      rw [Array.getElem?_eq_none_iff, size_starts_build, List.append_nil, List.count_append,
        List.count_eq_zero.mpr unbroken]
      exact Nat.le_refl _
    rw [last, List.append_nil]
  · have whole' : WholeLines (before ++ line ++ ['\n']) := .inr ⟨_, rfl⟩
    have next := getElem?_starts_build whole' rest
    rw [List.append_assoc, List.singleton_append, List.count_append, List.count_append,
      List.count_eq_zero.mpr unbroken, List.count_singleton_self, Nat.add_zero, Nat.add_comm] at next
    rw [next, size_append _ ['\n']]
    rfl

/-- The text behind whole lines is what precedes the next newline, without carriage returns at its
end. -/
theorem lineText_build (whole : WholeLines before) (unbroken : '\n' ∉ line)
    (ends : after = [] ∨ ∃ rest, after = '\n' :: rest) :
    (build (before ++ line ++ after)).lineText (before ++ line ++ after) (1 + before.count '\n') =
      (line.reverse.dropWhile (· == '\r')).reverse := by
  have start : (build (before ++ line ++ after)).lineStart (1 + before.count '\n') = size before := by
    rw [List.append_assoc]
    exact lineStart_build whole _
  have inside : size before ≤ size (before ++ line) := by
    rw [size_append]
    exact Nat.le_add_right ..
  have inside' : size before ≤ size (before ++ line ++ after) := by
    rw [size_append]
    exact Nat.le_trans inside (Nat.le_add_right ..)
  simp only [lineText, start, lineStop_build unbroken ends, Nat.min_eq_left inside',
    Nat.max_eq_left inside, slice?_append, Option.getD_some]

theorem placeOf_build_of_text (unbroken : '\n' ∉ line)
    (stop : size (before ++ line) = min offset (size (before ++ line ++ after))) :
    (build (before ++ line ++ after)).placeOf offset = before.count '\n' := by
  have bytes : (encode (before ++ line ++ after)).take offset = encode (before ++ line) := by
    rw [List.take_eq_take_min, length_encode, ← stop, encode_append, ← length_encode, List.take_left]
  rw [placeOf_build, bytes, count_newline_encode, List.count_append, List.count_eq_zero.mpr unbroken,
    Nat.add_zero]

/-- Behind whole lines that are few enough to be numbered, the part of the next line that is in front
of the offset counts. -/
theorem indentOf_build (whole : WholeLines before) (unbroken : '\n' ∉ line)
    (few : before.count '\n' < 4294967295)
    (stop : size (before ++ line) = min offset (size (before ++ line ++ after))) :
    (build (before ++ line ++ after)).indentOf (before ++ line ++ after) offset = line.length := by
  have start : (build (before ++ line ++ after)).lineStart (1 + before.count '\n') = size before := by
    rw [List.append_assoc]
    exact lineStart_build whole _
  have number : (build (before ++ line ++ after)).lineOf offset = 1 + before.count '\n' := by
    rw [lineOf, placeOf_build_of_text unbroken stop, ordinal_of_lt few]
  rw [indentOf, number, start, ← stop]
  simp only [slice?_append]

/-- The offset behind whole lines and a part of the next one has the column of the latter's end. -/
theorem position_build (short : size (before ++ line ++ after) < 4294967295)
    (whole : WholeLines before) (unbroken : '\n' ∉ line)
    (stop : size (before ++ line) = min offset (size (before ++ line ++ after))) :
    (build (before ++ line ++ after)).position (before ++ line ++ after) offset =
      (1 + before.count '\n', 1 + line.length) := by
  have total := size_append (before ++ line) after
  have total' := size_append before line
  have few : before.count '\n' < 4294967295 := by
    have le : before.count '\n' ≤ before.length := List.count_le_length
    have le' := length_le_size before
    omega
  have narrow : line.length < 4294967295 := by
    have le := length_le_size line
    omega
  rw [position, lineOf, placeOf_build_of_text unbroken stop, indentOf_build whole unbroken few stop,
    ordinal_of_lt few, ordinal_of_lt narrow]

/-- The line of an offset is one more than the number of newlines in front of it. -/
theorem lineOf_build {source : List Char} (short : size source < 4294967295) (offset : Nat) :
    (build source).lineOf offset = 1 + ((encode source).take offset).count newline := by
  have le : ((encode source).take offset).count newline ≤ size source := by
    refine Nat.le_trans List.count_le_length ?_
    rw [List.length_take, length_encode]
    exact Nat.min_le_right ..
  rw [lineOf, placeOf_build, ordinal_of_lt (Nat.lt_of_le_of_lt le short)]

/-- No column comes out as zero. -/
theorem position_snd_pos {source : List Char} (short : size source < 4294967295) (t : LineTable)
    (offset : Nat) : 0 < (t.position source offset).2 := by
  have le : t.indentOf source offset ≤ size source := by
    have stop := Nat.min_le_right offset (size source)
    rw [indentOf]
    split
    next text cut => exact Nat.le_trans (length_le_of_slice? cut) (Nat.le_trans (Nat.sub_le ..) stop)
    next => exact Nat.le_trans (Nat.sub_le ..) stop
  rw [position, ordinal_of_lt (Nat.lt_of_le_of_lt le short), Nat.add_comm]
  exact Nat.succ_pos _

/-- The offset, or the end if it is behind the end, lies in the line behind `before`, and `line` is
what stands between the start of the line and the offset. -/
structure Finds (t : LineTable) (source : List Char) (offset : Nat) (before line after : List Char) :
    Prop where
  split : source = before ++ line ++ after
  whole : WholeLines before
  unbroken : '\n' ∉ line
  start : t.lineStart (t.lineOf offset) = size before
  stop : size (before ++ line) = min offset (size source)
  position : t.position source offset = (t.lineOf offset, 1 + line.length)

/-- What a table knows of the offsets of its source. -/
structure Locates (t : LineTable) (source : List Char) : Prop where
  lineOf : ∀ offset, t.lineOf offset = 1 + ((encode source).take offset).count newline
  finds : ∀ {offset}, IsBoundary source (min offset (size source)) →
    ∃ before line after, t.Finds source offset before line after
  ascending : ∀ {offset offset'}, IsBoundary source offset → IsBoundary source offset' →
    offset < offset' → Prod.Lex (· < ·) (· < ·) (t.position source offset) (t.position source offset')
  injective : ∀ {offset offset'}, IsBoundary source offset → IsBoundary source offset' →
    t.position source offset = t.position source offset' → offset = offset'
  positionIn : ∀ offset, positionIn source offset = t.position source offset
  /-- The entries of the table have room in their words. -/
  starts : ∀ start ∈ t.starts, start < 4294967296

/-- Every boundary is found. -/
theorem exists_finds {source : List Char} (short : size source < 4294967295)
    (boundary : IsBoundary source (min offset (size source))) :
    ∃ before line after, (build source).Finds source offset before line after := by
  obtain ⟨text, after, rfl, stop⟩ := boundary
  obtain ⟨before, line, rfl, whole, unbroken⟩ := exists_wholeLines_append text
  have place := position_build short whole unbroken stop
  have number : (build (before ++ line ++ after)).lineOf offset = 1 + before.count '\n' :=
    congrArg Prod.fst place
  refine ⟨before, line, after, rfl, whole, unbroken, ?_, stop, ?_⟩
  · rw [number, List.append_assoc, lineStart_build whole]
  · rw [number, place]

/-- Between two boundaries are characters: with a newline among them the line becomes larger, and
otherwise the column does. -/
theorem position_lt_position {source : List Char} {offset offset' : Nat}
    (short : size source < 4294967295) (boundary : IsBoundary source offset)
    (boundary' : IsBoundary source offset') (lt : offset < offset') :
    Prod.Lex (· < ·) (· < ·) ((build source).position source offset)
      ((build source).position source offset') := by
  have stop := (Nat.min_eq_left boundary.le_size).symm
  have stop' := (Nat.min_eq_left boundary'.le_size).symm
  obtain ⟨text, rest, split, rfl⟩ := boundary
  obtain ⟨text', rest', rfl, rfl⟩ := boundary'
  obtain ⟨mid, rfl⟩ := exists_append_of_size_le split.symm (Nat.le_of_lt lt)
  obtain ⟨before, line, rfl, whole, unbroken⟩ := exists_wholeLines_append text
  have first : (build (before ++ line ++ mid ++ rest')).position (before ++ line ++ mid ++ rest')
      (size (before ++ line)) = (1 + before.count '\n', 1 + line.length) := by
    rw [List.append_assoc (before ++ line)] at short stop ⊢
    exact position_build short whole unbroken stop
  rw [first]
  -- either both offsets are in one line, or the second one is behind a newline of `mid`
  obtain ⟨lines, line', rfl, rfl | ⟨earlier, rfl⟩, unbroken'⟩ := exists_wholeLines_append mid
  · have second : (build (before ++ line ++ line' ++ rest')).position
        (before ++ line ++ line' ++ rest') (size (before ++ line ++ line')) =
          (1 + before.count '\n', 1 + (line ++ line').length) := by
      rw [List.append_assoc before line] at short stop' ⊢
      exact position_build short whole (List.not_mem_append unbroken unbroken') stop'
    have longer : 0 < line'.length := by
      refine List.length_pos_iff.mpr fun empty => ?_
      subst empty
      rw [List.append_nil, List.append_nil] at lt
      exact Nat.lt_irrefl _ lt
    rw [List.nil_append, second, List.length_append]
    exact .right _ (by omega)
  · have whole' : WholeLines (before ++ line ++ (earlier ++ ['\n'])) :=
      .inr ⟨before ++ line ++ earlier, (List.append_assoc ..).symm⟩
    rw [← List.append_assoc (before ++ line)] at short stop' ⊢
    rw [position_build short whole' unbroken' stop', List.count_append, List.count_append,
      List.count_append, List.count_singleton_self]
    exact .left _ _ (by omega)

theorem position_injective {source : List Char} {offset offset' : Nat}
    (short : size source < 4294967295) (boundary : IsBoundary source offset)
    (boundary' : IsBoundary source offset')
    (same : (build source).position source offset = (build source).position source offset') :
    offset = offset' := by
  have irrefl : ∀ p : Nat × Nat, ¬Prod.Lex (· < ·) (· < ·) p p := by
    rintro ⟨line, column⟩ less
    cases less with
    | left _ _ less => exact Nat.lt_irrefl _ less
    | right _ less => exact Nat.lt_irrefl _ less
  rcases Nat.lt_trichotomy offset offset' with lt | eq | gt
  · exact absurd (same ▸ position_lt_position short boundary boundary' lt) (irrefl _)
  · exact eq
  · exact absurd (same ▸ position_lt_position short boundary' boundary gt) (irrefl _)

theorem le_size_of_mem_starts {source : List Char} {start : Nat}
    (mem : start ∈ (build source).starts) : start ≤ size source := by
  rw [build, List.mem_toArray] at mem
  rcases List.mem_cons.mp mem with rfl | mem
  · exact Nat.zero_le _
  · have upper := (bounds_of_mem_startsFrom mem).2
    rwa [Nat.zero_add, length_encode] at upper

/-- A table locates the offsets of the source that it was built from. -/
theorem build_locates (source : List Char) (short : size source < 4294967295) :
    (build source).Locates source where
  lineOf := lineOf_build short
  finds := exists_finds short
  ascending := position_lt_position short
  injective := position_injective short
  positionIn := fun offset => rfl
  starts := fun start mem =>
    Nat.lt_of_le_of_lt (le_size_of_mem_starts mem) (Nat.lt_trans short (by decide))

/-- A character of two bytes in front of an offset, and a newline in front of another one. -/
theorem build_locates_of_two_lines :
    let source := "θ = 1\nab".toList
    let t := build source
    size source < 4294967295 ∧ IsBoundary source 3 ∧ IsBoundary source 8 ∧ t.lineOf 8 = 2 ∧
      t.position source 3 = (1, 3) ∧
      Prod.Lex (· < ·) (· < ·) (t.position source 3) (t.position source 8) := by
  intro source t
  have short : size source < 4294967295 := by decide +kernel
  have locates : t.Locates source := build_locates source short
  have boundary : IsBoundary source 3 := ⟨"θ ".toList, "= 1\nab".toList, by decide, by decide +kernel⟩
  have boundary' : IsBoundary source 8 := ⟨"θ = 1\na".toList, ['b'], by decide, by decide +kernel⟩
  refine ⟨short, boundary, boundary', ?_, by decide +kernel,
    locates.ascending boundary boundary' (by decide)⟩
  rw [locates.lineOf]
  decide +kernel

/-! ## No room for the last line or column -/

theorem lineOf_newlines (n : Nat) : (build (List.replicate n '\n')).lineOf n = ordinal n := by
  have all : (encode (List.replicate n '\n')).take n = encode (List.replicate n '\n') := by
    refine List.take_of_length_le (Nat.le_of_eq ?_)
    rw [length_encode, size_replicate]
    exact Nat.mul_one n
  rw [lineOf, placeOf_build, all, count_newline_encode, List.count_replicate_self]

theorem position_letters (n : Nat) :
    (build (List.replicate n 'a')).position (List.replicate n 'a') n = (1, ordinal n) := by
  have unbroken : '\n' ∉ List.replicate n 'a' :=
    fun mem => absurd (List.eq_of_mem_replicate mem) (by decide)
  have size : size ([] ++ List.replicate n 'a') = n := (size_replicate n 'a').trans (Nat.mul_one n)
  have stop : Bytes.size ([] ++ List.replicate n 'a') =
      min n (Bytes.size ([] ++ List.replicate n 'a' ++ [])) := by
    rw [List.append_nil, size, Nat.min_self]
  have place := placeOf_build_of_text unbroken stop
  have indent := indentOf_build (.inl rfl) unbroken (by decide) stop
  rw [List.append_nil, List.nil_append] at place indent
  rw [position, lineOf, place, indent, List.length_replicate]
  rfl

/-- The last column of the longest line that offsets can measure has no room in its word, nor has the
number of the line behind as many newlines. -/
theorem position_overflows :
    (size (List.replicate 4294967295 'a') = 4294967295 ∧
      IsBoundary (List.replicate 4294967295 'a') 4294967295 ∧
      (build (List.replicate 4294967295 'a')).position (List.replicate 4294967295 'a') 4294967295 =
        (1, 0) ∧
      1 + (List.replicate 4294967295 'a').length = 4294967296) ∧
    (size (List.replicate 4294967295 '\n') = 4294967295 ∧
      (build (List.replicate 4294967295 '\n')).lineOf 4294967295 = 0) := by
  have zero : ordinal 4294967295 = 0 := by decide
  have letters : size (List.replicate 4294967295 'a') = 4294967295 := size_replicate _ _
  have newlines : size (List.replicate 4294967295 '\n') = 4294967295 := size_replicate _ _
  refine ⟨⟨letters, ⟨_, [], (List.append_nil _).symm, letters⟩, ?_, ?_⟩, newlines, ?_⟩
  · rw [position_letters, zero]
  · rw [List.length_replicate]
  · rw [lineOf_newlines, zero]

end ShapeScript.LineTable
