import ShapeScript.Report.LineTable

/-!
# Characters and their bytes

Splitting a text between characters and splitting its bytes comes to the same
(`Bytes.slice?_append`, `Bytes.exists_append_of_size_le`), and only a newline has the byte of a
newline in it (`Bytes.count_newline_encode`).
-/

namespace ShapeScript.Bytes

/-- The bytes of a string are those of its characters. -/
theorem encode_toList (s : String) : encode s.toList = s.toByteArray.data.toList := by
  rw [← String.utf8Encode_toList, List.utf8Encode, List.data_toByteArray]
  rfl

theorem encode_append (a b : List Char) : encode (a ++ b) = encode a ++ encode b :=
  List.flatMap_append

theorem length_encode (text : List Char) : (encode text).length = size text := by
  induction text with
  | nil => rfl
  | cons c rest ih =>
    change (String.utf8EncodeChar c ++ encode rest).length = _
    rw [List.length_append, String.length_utf8EncodeChar, ih, size]

theorem size_append (a b : List Char) : size (a ++ b) = size a + size b := by
  rw [← length_encode, encode_append, List.length_append, length_encode, length_encode]

theorem size_replicate (n : Nat) (c : Char) : size (List.replicate n c) = n * c.utf8Size := by
  induction n with
  | zero => rw [Nat.zero_mul]; rfl
  | succ n ih => rw [List.replicate_succ, size, ih, Nat.succ_mul, Nat.add_comm]

/-- Every character takes a byte at least. -/
theorem length_le_size (text : List Char) : text.length ≤ size text := by
  induction text with
  | nil => exact Nat.zero_le _
  | cons c rest ih =>
    rw [List.length_cons, size, Nat.add_comm]
    exact Nat.add_le_add c.utf8Size_pos ih

/-! ## Splitting -/

theorem drop?_append (a b : List Char) : drop? (a ++ b) (size a) = some b := by
  induction a with
  | nil => cases b <;> rfl
  | cons c rest ih =>
    have pos := c.utf8Size_pos
    obtain ⟨n, total⟩ : ∃ n, c.utf8Size + size rest = n + 1 :=
      Nat.exists_eq_add_one.mpr (Nat.add_pos_left pos _)
    have left : n + 1 - c.utf8Size = size rest := by omega
    rw [List.cons_append, size, total, drop?, if_pos (by omega), left, ih]

theorem take?_append (a b : List Char) : take? (a ++ b) (size a) = some a := by
  induction a with
  | nil => cases b <;> rfl
  | cons c rest ih =>
    have pos := c.utf8Size_pos
    obtain ⟨n, total⟩ : ∃ n, c.utf8Size + size rest = n + 1 :=
      Nat.exists_eq_add_one.mpr (Nat.add_pos_left pos _)
    have left : n + 1 - c.utf8Size = size rest := by omega
    rw [List.cons_append, size, total, take?, if_pos (by omega), left, ih, Option.map_some]

theorem slice?_append (before line after : List Char) :
    slice? (before ++ line ++ after) (size before) (size (before ++ line)) = some line := by
  have length : size (before ++ line) - size before = size line := by
    rw [size_append, Nat.add_sub_cancel_left]
  rw [slice?, if_pos (size_append before line ▸ Nat.le_add_right ..), List.append_assoc,
    drop?_append, Option.bind_some, length, take?_append]

theorem length_le_of_take? {text part : List Char} {n : Nat} (taken : take? text n = some part) :
    part.length ≤ n := by
  fun_induction take? text n generalizing part with
  | case1 text =>
    cases taken
    exact Nat.le_refl _
  | case2 => cases taken
  | case3 c rest n fits ih =>
    obtain ⟨front, fewer, rfl⟩ := Option.map_eq_some_iff.mp taken
    have le := ih fewer
    have pos := c.utf8Size_pos
    rw [List.length_cons]
    omega
  | case4 => cases taken

/-- A stretch has no more characters than bytes. -/
theorem length_le_of_slice? {text part : List Char} {start stop : Nat}
    (cut : slice? text start stop = some part) : part.length ≤ stop - start := by
  rw [slice?] at cut
  split at cut
  · obtain ⟨rest, -, taken⟩ := Option.bind_eq_some_iff.mp cut
    exact length_le_of_take? taken
  · cases cut

/-- Of two ways to split a text, one goes further than the other. -/
theorem exists_append_of_size_le {a b a' b' : List Char} (same : a ++ b = a' ++ b')
    (le : size a ≤ size a') : ∃ mid, a' = a ++ mid := by
  rcases List.append_eq_append_iff.mp same with ⟨mid, split, -⟩ | ⟨mid, split, -⟩
  · exact ⟨mid, split⟩
  · refine ⟨[], ?_⟩
    rw [split, size_append] at le
    have empty : mid = [] := by
      have short := length_le_size mid
      exact List.eq_nil_of_length_eq_zero (by omega)
    rw [split, empty, List.append_nil, List.append_nil]

/-! ## Newlines -/

theorem notMem_utf8EncodeChar {c : Char} (other : c ≠ '\n') :
    LineTable.newline ∉ String.utf8EncodeChar c := by
  have ne : c.val.toNat ≠ 10 := fun same => other (Char.ext (UInt32.toNat_inj.mp same))
  have byte : ∀ {n : Nat}, n < 256 → n ≠ 10 → LineTable.newline ≠ UInt8.ofNat n := by
    intro n lt ne same
    have same := congrArg UInt8.toNat same
    rw [UInt8.toNat_ofNat_of_lt' lt] at same
    exact ne same.symm
  rw [String.utf8EncodeChar]
  split
  · simp only [List.mem_singleton]
    exact byte (by omega) ne
  split
  · simp only [List.mem_cons, List.not_mem_nil, or_false, not_or]
    exact ⟨byte (by omega) (by omega), byte (by omega) (by omega)⟩
  split
  · simp only [List.mem_cons, List.not_mem_nil, or_false, not_or]
    exact ⟨byte (by omega) (by omega), byte (by omega) (by omega), byte (by omega) (by omega)⟩
  · simp only [List.mem_cons, List.not_mem_nil, or_false, not_or]
    exact ⟨byte (by omega) (by omega), byte (by omega) (by omega), byte (by omega) (by omega),
      byte (by omega) (by omega)⟩

/-- The bytes of a text hold as many newlines as its characters. -/
theorem count_newline_encode (text : List Char) :
    (encode text).count LineTable.newline = text.count '\n' := by
  induction text with
  | nil => rfl
  | cons c rest ih =>
    change (String.utf8EncodeChar c ++ encode rest).count _ = _
    rw [List.count_append, ih, List.count_cons, Nat.add_comm]
    congr 1
    by_cases same : c = '\n'
    · subst same
      rfl
    · rw [List.count_eq_zero.mpr (notMem_utf8EncodeChar same), if_neg (by simpa using same)]

/-- Nothing, or whole lines. -/
def WholeLines (text : List Char) : Prop := text = [] ∨ ∃ earlier, text = earlier ++ ['\n']

/-- Whole lines, and behind them what has been begun of a line. -/
theorem exists_wholeLines_append (text : List Char) :
    ∃ before line, text = before ++ line ∧ WholeLines before ∧ '\n' ∉ line := by
  induction text with
  | nil => exact ⟨[], [], rfl, .inl rfl, nofun⟩
  | cons c rest ih =>
    obtain ⟨before, line, rfl, rfl | ⟨earlier, rfl⟩, unbroken⟩ := ih
    · by_cases ends : c = '\n'
      · exact ⟨[c], line, rfl, .inr ⟨[], congrArg ([·]) ends⟩, unbroken⟩
      · exact ⟨[], c :: line, rfl, .inl rfl,
          List.not_mem_cons_of_ne_of_not_mem (Ne.symm ends) unbroken⟩
    · exact ⟨c :: (earlier ++ ['\n']), line, rfl, .inr ⟨c :: earlier, rfl⟩, unbroken⟩

/-- A character starts at the offset, or the text ends there. -/
def IsBoundary (text : List Char) (offset : Nat) : Prop :=
  ∃ before after, text = before ++ after ∧ size before = offset

theorem IsBoundary.le_size {text : List Char} {offset : Nat} (boundary : IsBoundary text offset) :
    offset ≤ size text := by
  obtain ⟨before, after, rfl, rfl⟩ := boundary
  rw [size_append]
  exact Nat.le_add_right ..

end ShapeScript.Bytes
