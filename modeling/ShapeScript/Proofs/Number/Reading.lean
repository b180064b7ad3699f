import ShapeScript.Number.Literal
import ShapeScript.Proofs.Number.Shortest

/-!
# Texts of numbers, read back

Positional notation spells a numeral (`Shortest.exists_spells_positional`), and reading what spells
a numeral gives its nearest number, with nothing taken for a blank, an exponent or a word
(`Literal.parse?_of_spells`). The shortest numeral of a number is read as this number, and so is the
text (`Literal.parse?_text`).
-/

namespace ShapeScript

open Binary64

namespace Literal

/-! ## Rows of digits -/

/-- Nothing but digits. -/
def Digits (row : List Char) : Prop := ∀ c ∈ row, c.isDigit = true

variable {whole fraction row : List Char}

theorem Digits.append (h : Digits whole) (h' : Digits fraction) : Digits (whole ++ fraction) :=
  fun c mem => (List.mem_append.mp mem).elim (h c) (h' c)

theorem digits_toDigits (n : Nat) : Digits (Nat.toDigits 10 n) :=
  fun _ mem => Nat.isDigit_of_mem_toDigits (by decide) (by decide) mem

theorem digits_replicate_zero (n : Nat) : Digits (List.replicate n '0') := by
  intro c mem
  rw [List.eq_of_mem_replicate mem]
  rfl

theorem digitsValue_eq (row : List Char) : digitsValue row = Nat.ofDigitChars 10 row 0 := by
  simp only [digitsValue, Nat.ofDigitChars, Nat.mul_comm]

/-- Zeros behind multiply by ten each. -/
theorem digitsValue_append_zeros (n places : Nat) :
    digitsValue (Nat.toDigits 10 n ++ List.replicate places '0') = 10 ^ places * n := by
  rw [digitsValue_eq, Nat.ofDigitChars_append, Nat.ofDigitChars_ten_toDigits,
    Nat.ofDigitChars_replicate_zero]

/-- Zeros in front change nothing. -/
theorem digitsValue_zeros_append (n places : Nat) :
    digitsValue (List.replicate places '0' ++ Nat.toDigits 10 n) = n := by
  rw [digitsValue_eq, Nat.ofDigitChars_append, Nat.ofDigitChars_replicate_zero, Nat.mul_zero,
    Nat.ofDigitChars_ten_toDigits]

/-! ## Spellings -/

/-- How a numeral is spelled: by a row of digits, which may have a point somewhere behind the first. -/
inductive Spells : List Char → Decimal → Prop where
  | whole {row : List Char} : Digits row → row ≠ [] → Spells row ⟨digitsValue row, 0⟩
  | point {whole fraction : List Char} : Digits whole → whole ≠ [] → Digits fraction →
    Spells (whole ++ '.' :: fraction) ⟨digitsValue (whole ++ fraction), -(fraction.length : Int)⟩

variable {d : Decimal}

theorem decimal?_of_spells (h : Spells row d) : decimal? row = some d := by
  cases h with
  | whole digits filled =>
    have taken := List.takeWhile_eq_self_iff.mpr digits
    have dropped := List.dropWhile_eq_nil_iff.mpr digits
    simp [decimal?, taken, dropped, splitFraction, exponent?, filled]
  | @point whole fraction digits filled digits' =>
    have taken : (whole ++ '.' :: fraction).takeWhile Char.isDigit = whole := by
      rw [List.takeWhile_append_of_pos digits]
      exact List.append_nil whole
    have dropped : (whole ++ '.' :: fraction).dropWhile Char.isDigit = '.' :: fraction :=
      List.dropWhile_append_of_pos digits
    have taken' := List.takeWhile_eq_self_iff.mpr digits'
    have dropped' := List.dropWhile_eq_nil_iff.mpr digits'
    simp [decimal?, taken, dropped, splitFraction, taken', dropped', exponent?, filled]

namespace Spells

/-- A point in front of the last digits. -/
theorem of_digits (digits : Digits row) {places : Nat} (long : places < row.length) :
    Spells (row.take (row.length - places) ++ '.' :: row.drop (row.length - places))
      ⟨digitsValue row, -(places : Int)⟩ := by
  have before : Digits (row.take (row.length - places)) :=
    fun c mem => digits c (List.mem_of_mem_take mem)
  have behind : Digits (row.drop (row.length - places)) :=
    fun c mem => digits c (List.mem_of_mem_drop mem)
  have length : (row.drop (row.length - places)).length = places := by
    rw [List.length_drop]
    omega
  have filled : row.take (row.length - places) ≠ [] := by
    refine List.ne_nil_of_length_pos ?_
    rw [List.length_take]
    omega
  have spells := point before filled behind
  rwa [List.take_append_drop, length] at spells

/-- The first character is a digit. -/
theorem exists_cons (h : Spells row d) : ∃ c rest, row = c :: rest ∧ c.isDigit = true := by
  cases h with
  | whole digits filled =>
    obtain ⟨c, rest, rfl⟩ := List.exists_cons_of_ne_nil filled
    exact ⟨c, rest, rfl, digits c (.head _)⟩
  | point digits filled _ =>
    obtain ⟨c, rest, rfl⟩ := List.exists_cons_of_ne_nil filled
    exact ⟨c, _, rfl, digits c (.head _)⟩

/-- There is no exponent. -/
theorem isDigit_or_eq_point (h : Spells row d) {c : Char} (mem : c ∈ row) :
    c.isDigit = true ∨ c = '.' := by
  cases h with
  | whole digits _ => exact .inl (digits c mem)
  | point digits _ digits' =>
    rcases List.mem_append.mp mem with before | behind
    · exact .inl (digits c before)
    · exact (List.mem_cons.mp behind).symm.imp_left (digits' c)

end Spells

/-! ## Signs and blanks -/

theorem toNat_of_isDigit {c : Char} (digit : c.isDigit = true) : 48 ≤ c.toNat ∧ c.toNat ≤ 57 := by
  simpa [Char.isDigit, UInt32.le_iff_toNat_le] using digit

theorem not_isBlank_of_isDigit {c : Char} (digit : c.isDigit = true) : Blank.isBlank c = false := by
  obtain ⟨low, high⟩ := toNat_of_isDigit digit
  simp only [Blank.isBlank, Blank.ranges, List.any_cons, List.any_nil, Bool.or_false,
    Bool.or_eq_false_iff, Bool.and_eq_false_iff, decide_eq_false_iff_not]
  omega

/-- A text without blanks is kept. -/
theorem trim_eq_self {text : List Char} (noBlank : ∀ c ∈ text, Blank.isBlank c = false) :
    Blank.trim text = text := by
  have kept {l : List Char} (noBlank : ∀ c ∈ l, Blank.isBlank c = false) :
      l.dropWhile Blank.isBlank = l := by
    refine List.dropWhile_eq_self_iff.mpr fun pos => ?_
    rw [noBlank _ (List.getElem_mem pos)]
    exact Bool.false_ne_true
  rw [Blank.trim, kept noBlank, kept fun c mem => noBlank c (List.mem_reverse.mp mem),
    List.reverse_reverse]

theorem toLower_of_isDigit {c : Char} (digit : c.isDigit = true) : c.toLower = c := by
  obtain ⟨-, high⟩ := toNat_of_isDigit digit
  refine dif_neg fun upper => ?_
  have letter : 65 ≤ c.toNat := UInt32.le_iff_toNat_le.mp upper.1
  omega

/-- A digit is no sign. -/
theorem splitSign_of_isDigit {c : Char} (digit : c.isDigit = true) (rest : List Char)
    (negative : Bool) :
    splitSign (if negative then '-' :: c :: rest else c :: rest) = (negative, c :: rest) := by
  cases negative with
  | true => rfl
  | false =>
    change splitSign (c :: rest) = _
    rw [splitSign] <;>
    · intro _ same
      rw [(List.cons.inj same).1] at digit
      exact nomatch digit

/-- What begins with a digit is no word. -/
theorem map_toLower_ne {c first : Char} (digit : c.isDigit = true) (letter : first.isDigit = false)
    (rest others : List Char) : (c :: rest).map Char.toLower ≠ first :: others := by
  intro same
  rw [List.map_cons, toLower_of_isDigit digit] at same
  rw [(List.cons.inj same).1, letter] at digit
  exact nomatch digit

/-- A spelled numeral reads as the nearest number, with the sign in front of it. -/
theorem parse?_of_spells (h : Spells row d) (negative : Bool) :
    parse? (String.ofList (if negative then '-' :: row else row)) =
      some (ofMagnitude negative d.nearestMagnitude) := by
  have noBlank : ∀ c ∈ (if negative then '-' :: row else row), Blank.isBlank c = false := by
    intro c mem
    have character : c = '-' ∨ c ∈ row := by
      cases negative with
      | true => exact List.mem_cons.mp mem
      | false => exact .inr mem
    rcases character with rfl | mem
    · rfl
    · rcases h.isDigit_or_eq_point mem with digit | rfl
      · exact not_isBlank_of_isDigit digit
      · rfl
  have read := decimal?_of_spells h
  obtain ⟨c, rest, rfl, digit⟩ := h.exists_cons
  have n : 'n'.isDigit = false := rfl
  have i : 'i'.isDigit = false := rfl
  have no_nan := map_toLower_ne digit n rest ['a', 'n']
  have no_inf := map_toLower_ne digit i rest ['n', 'f']
  have no_infinity := map_toLower_ne digit i rest ['n', 'f', 'i', 'n', 'i', 't', 'y']
  rw [parse?, String.toList_ofList, trim_eq_self noBlank]
  simp only [number?, splitSign_of_isDigit digit, if_neg no_nan,
    if_neg (not_or.mpr ⟨no_inf, no_infinity⟩), read, Option.map_some]

end Literal

namespace Shortest

open Literal

/-! ## Texts -/

/-- Positional notation spells a numeral with the same value: zeros take the place of the power of
ten, or a point does. -/
theorem exists_spells_positional (d : Decimal) :
    ∃ d', Spells (positional d) d' ∧ d'.value = d.value := by
  have digits := digits_toDigits d.digits
  rw [positional]
  split
  next whole =>
    refine ⟨_, .whole (digits.append (digits_replicate_zero _)) ?_, ?_⟩
    · exact List.append_ne_nil_of_left_ne_nil Nat.toDigits_ne_nil _
    · have power : (10 : ℚ) ^ d.exponent = 10 ^ d.exponent.toNat := by
        rw [← zpow_natCast, Int.toNat_of_nonneg whole]
      rw [Decimal.value, Decimal.value, digitsValue_append_zeros, power, zpow_zero, mul_one]
      push_cast
      ring
  next fraction =>
    obtain ⟨places, exponent⟩ : ∃ places : Nat, d.exponent = -places :=
      ⟨(-d.exponent).toNat, by omega⟩
    rw [exponent, neg_neg, Int.toNat_natCast]
    refine ⟨_, .of_digits ((digits_replicate_zero _).append digits) ?_, ?_⟩
    · rw [List.length_append, List.length_replicate]
      omega
    · rw [Decimal.value, Decimal.value, digitsValue_zeros_append, exponent]

/-- The text of a finite number spells a numeral that is read as this number. -/
theorem exists_spells_chars {v : Float} (finite : magnitude v < infinityMagnitude) :
    ∃ row d, chars v = (if isNegative v then '-' :: row else row) ∧ Spells row d ∧
      d.nearestMagnitude = magnitude v := by
  rw [chars, if_neg (Nat.lt_asymm finite)]
  simp only [if_neg (Nat.ne_of_lt finite)]
  by_cases zero : magnitude v = 0
  · rw [zero, if_pos rfl]
    exact ⟨_, _, rfl, .whole (fun c mem => List.mem_singleton.mp mem ▸ rfl) nofun, rfl⟩
  · rw [if_neg zero]
    obtain ⟨d, spells, same⟩ := exists_spells_positional (numeral (magnitude v))
    refine ⟨_, d, rfl, spells, ?_⟩
    rw [Decimal.nearestMagnitude_eq_of_value_eq same]
    exact (best_numeral (Nat.pos_of_ne_zero zero) (Nat.le_of_lt finite)).1.reads

end Shortest

namespace Literal

open Shortest

theorem parse?_infinity (negative : Bool) :
    parse? (String.ofList (if negative then ['-', 'i', 'n', 'f'] else ['i', 'n', 'f'])) =
      some (ofMagnitude negative infinityMagnitude) := by
  cases negative <;> rfl

/-- The text of a number reads as that number. -/
theorem parse?_text (v : Float) : parse? (text v) = some v := by
  rcases Nat.lt_trichotomy (magnitude v) infinityMagnitude with finite | infinite | beyond
  · obtain ⟨row, d, spelled, spells, reads⟩ := exists_spells_chars finite
    rw [text, spelled, parse?_of_spells spells, reads, ofMagnitude_magnitude]
  · have word : chars v = if isNegative v then ['-', 'i', 'n', 'f'] else ['i', 'n', 'f'] := by
      rw [chars, infinite, if_neg (Nat.lt_irrefl _)]
      rfl
    rw [text, word, parse?_infinity, ← infinite, ofMagnitude_magnitude]
  · rw [text, chars, if_pos beyond, eq_nan_of_lt_magnitude beyond]
    rfl

end Literal
end ShapeScript
