import Mathlib
import ShapeScript.Proofs.Number.Value

/-!
# Correct rounding

Of the magnitudes that are nearest to a fraction of units there is one, if a tie goes to the even
one (`Binary64.Nearest.unique`), and `nearestMagnitude` finds it
(`Binary64.nearest_nearestMagnitude`). The rest is read off what nearest means: rounding is monotone
(`Binary64.Nearest.mono`), it keeps what is a number already (`Binary64.nearest_units`), and it takes
back what is off by very little (`Binary64.nearest_of_close`).
-/

namespace ShapeScript.Binary64

/-! ## The grid of magnitudes -/

/-- A magnitude by its digits and their exponent. As many digits as make the next exponent stand for
it. -/
theorem unitsOfMagnitude_add {shift q : Nat} (full : shift = 0 ∨ 2 ^ 52 ≤ q) (le : q ≤ 2 ^ 53) :
    unitsOfMagnitude (shift * perExponent + q) = q * 2 ^ shift := by
  rcases Nat.lt_or_ge q (2 ^ 52) with short | long
  · obtain rfl : shift = 0 := by omega
    rw [Nat.zero_mul, Nat.zero_add, unitsOfMagnitude_subnormal short, Nat.pow_zero, Nat.mul_one]
  rcases Nat.eq_or_lt_of_le le with rfl | lt
  · have carried : shift * perExponent + 2 ^ 53 = (shift + 2) * perExponent + 0 := by
      rw [perExponent]
      omega
    have power : (2 : Nat) ^ (shift + 2 - 1) = 2 * 2 ^ shift := Nat.pow_succ'
    rw [carried, unitsOfMagnitude_normal (Nat.succ_pos _) (by decide), power, ← Nat.mul_assoc]
    rfl
  · have parts : shift * perExponent + q = (shift + 1) * perExponent + (q - 2 ^ 52) := by
      rw [perExponent]
      omega
    have digits : perExponent + (q - 2 ^ 52) = q := by
      rw [perExponent]
      omega
    have small : q - 2 ^ 52 < perExponent := by
      rw [perExponent]
      omega
    rw [parts, unitsOfMagnitude_normal (Nat.succ_pos _) small, digits]
    rfl

/-- Every magnitude has its digits. -/
theorem exists_digits (m : Nat) : ∃ shift q, m = shift * perExponent + q ∧
    (shift = 0 ∨ 2 ^ 52 ≤ q) ∧ q < 2 ^ 53 := by
  have parts := Nat.div_add_mod m perExponent
  have small : m % perExponent < 2 ^ 52 := Nat.mod_lt _ (by decide)
  rcases Nat.eq_zero_or_pos (m / perExponent) with none | pos
  · refine ⟨0, m, by rw [Nat.zero_mul, Nat.zero_add], .inl rfl, ?_⟩
    rw [none, Nat.mul_zero, Nat.zero_add] at parts
    omega
  · refine ⟨m / perExponent - 1, m % perExponent + 2 ^ 52, ?_, .inr (Nat.le_add_left ..), by omega⟩
    obtain ⟨e, exponent⟩ := Nat.exists_eq_add_one.mpr pos
    rw [exponent, perExponent] at parts ⊢
    omega

theorem strictMono_unitsOfMagnitude : StrictMono unitsOfMagnitude := by
  refine strictMono_nat_of_lt_succ fun m => ?_
  obtain ⟨shift, q, rfl, full, lt⟩ := exists_digits m
  rw [Nat.add_assoc, unitsOfMagnitude_add full (Nat.le_of_lt lt),
    unitsOfMagnitude_add (full.imp_right Nat.le_succ_of_le) lt]
  exact Nat.mul_lt_mul_of_pos_right (Nat.lt_succ_self q) (Nat.two_pow_pos shift)

theorem units_lt_units {m n : Nat} : (unitsOfMagnitude m : ℚ) < unitsOfMagnitude n ↔ m < n := by
  rw [Nat.cast_lt, strictMono_unitsOfMagnitude.lt_iff_lt]

theorem units_le_units {m n : Nat} : (unitsOfMagnitude m : ℚ) ≤ unitsOfMagnitude n ↔ m ≤ n := by
  rw [Nat.cast_le, strictMono_unitsOfMagnitude.le_iff_le]

/-! ## The nearest magnitude -/

/-- No magnitude is nearer to `x` units, and one that is as near has to be odd. Infinity counts as
the power of two that follows the finite numbers. -/
structure Nearest (x : ℚ) (m : Nat) : Prop where
  le : m ≤ infinityMagnitude
  closest : ∀ n ≤ infinityMagnitude, |x - unitsOfMagnitude m| ≤ |x - unitsOfMagnitude n|
  even : ∀ n ≤ infinityMagnitude, n ≠ m → |x - unitsOfMagnitude n| = |x - unitsOfMagnitude m| →
    m % 2 = 0

variable {x y : ℚ} {m n : Nat}

/-- It is enough to compare with the two neighbours, and with the smaller ones already with a
magnitude below which the others are. -/
theorem nearest_of_between (le : m ≤ infinityMagnitude)
    (above : ∀ k, k + 1 = m → (unitsOfMagnitude k + unitsOfMagnitude m : ℚ) ≤ 2 * x ∧
      (unitsOfMagnitude k + unitsOfMagnitude m = 2 * x → m % 2 = 0))
    (below : m < infinityMagnitude → 2 * x ≤ unitsOfMagnitude m + unitsOfMagnitude (m + 1) ∧
      (2 * x = unitsOfMagnitude m + unitsOfMagnitude (m + 1) → m % 2 = 0)) : Nearest x m := by
  have near : ∀ n ≤ infinityMagnitude, n ≠ m →
      |x - unitsOfMagnitude m| ≤ |x - unitsOfMagnitude n| ∧
        (|x - unitsOfMagnitude n| = |x - unitsOfMagnitude m| → m % 2 = 0) := by
    intro n inside ne
    rcases Nat.lt_or_gt_of_ne ne with less | greater
    · obtain ⟨k, rfl⟩ := Nat.exists_eq_add_one.mpr (Nat.zero_lt_of_lt less)
      obtain ⟨half, tie⟩ := above k rfl
      have step : (unitsOfMagnitude k : ℚ) < unitsOfMagnitude (k + 1) :=
        units_lt_units.mpr (Nat.lt_succ_self k)
      have far : (unitsOfMagnitude n : ℚ) ≤ unitsOfMagnitude k :=
        units_le_units.mpr (Nat.le_of_lt_succ less)
      have positive : 0 ≤ x - unitsOfMagnitude n := by linarith
      rw [abs_of_nonneg positive]
      refine ⟨abs_le.mpr ⟨by linarith, by linarith⟩, fun same => tie ?_⟩
      rcases abs_cases (x - unitsOfMagnitude (k + 1)) with ⟨value, -⟩ | ⟨value, -⟩ <;>
        rw [value] at same <;> linarith
    · obtain ⟨half, tie⟩ := below (Nat.lt_of_lt_of_le greater inside)
      have step : (unitsOfMagnitude m : ℚ) < unitsOfMagnitude (m + 1) :=
        units_lt_units.mpr (Nat.lt_succ_self m)
      have far : (unitsOfMagnitude (m + 1) : ℚ) ≤ unitsOfMagnitude n := units_le_units.mpr greater
      have negative : x - unitsOfMagnitude n ≤ 0 := by linarith
      rw [abs_of_nonpos negative]
      refine ⟨abs_le.mpr ⟨by linarith, by linarith⟩, fun same => tie ?_⟩
      rcases abs_cases (x - unitsOfMagnitude m) with ⟨value, -⟩ | ⟨value, -⟩ <;>
        rw [value] at same <;> linarith
  refine ⟨le, fun n inside => ?_, fun n inside ne => (near n inside ne).2⟩
  rcases eq_or_ne n m with rfl | ne
  · exact le_rfl
  · exact (near n inside ne).1

/-- What lies beyond infinity is rounded to it. -/
theorem nearest_infinity (beyond : unitsOfMagnitude infinityMagnitude ≤ x) :
    Nearest x infinityMagnitude := by
  refine nearest_of_between le_rfl (fun k next => ?_) fun less => absurd less (Nat.lt_irrefl _)
  have step : (unitsOfMagnitude k : ℚ) < unitsOfMagnitude infinityMagnitude :=
    units_lt_units.mpr (next ▸ Nat.lt_succ_self k)
  exact ⟨by linarith, fun tie => by linarith⟩

/-- What is a number already is kept. -/
theorem nearest_units (le : m ≤ infinityMagnitude) : Nearest (unitsOfMagnitude m) m where
  le := le
  closest n _ := by
    rw [sub_self, abs_zero]
    exact abs_nonneg _
  even n _ ne same := by
    rw [sub_self, abs_zero, abs_eq_zero, sub_eq_zero, Nat.cast_inj] at same
    exact absurd (strictMono_unitsOfMagnitude.injective same).symm ne

namespace Nearest

/-- Of two magnitudes the nearest one is on the same side of the middle. -/
theorem middle_le (h : Nearest x m) (inside : n ≤ infinityMagnitude) (less : n < m) :
    (unitsOfMagnitude n + unitsOfMagnitude m : ℚ) ≤ 2 * x := by
  have step : (unitsOfMagnitude n : ℚ) < unitsOfMagnitude m := units_lt_units.mpr less
  have closest := sq_le_sq.mpr (h.closest n inside)
  nlinarith

theorem le_middle (h : Nearest x m) (inside : n ≤ infinityMagnitude) (less : m < n) :
    2 * x ≤ unitsOfMagnitude m + unitsOfMagnitude n := by
  have step : (unitsOfMagnitude m : ℚ) < unitsOfMagnitude n := units_lt_units.mpr less
  have closest := sq_le_sq.mpr (h.closest n inside)
  nlinarith

/-- Two nearest magnitudes would both be even, and the odd one between them would be nearer. -/
theorem unique (h : Nearest x m) (h' : Nearest x n) : m = n := by
  have distinct : ∀ {m n : Nat}, Nearest x m → Nearest x n → ¬m < n := by
    intro m n h h' less
    have same : |x - unitsOfMagnitude n| = |x - unitsOfMagnitude m| :=
      le_antisymm (h'.closest m h.le) (h.closest n h'.le)
    have even := h.even n h'.le (Nat.ne_of_gt less) same
    have even' := h'.even m h.le (Nat.ne_of_lt less) same.symm
    have between : m + 1 < n := by omega
    have high := h.le_middle (Nat.le_trans (Nat.le_of_lt between) h'.le) (Nat.lt_succ_self m)
    have low := h'.middle_le h.le less
    have step : (unitsOfMagnitude (m + 1) : ℚ) < unitsOfMagnitude n := units_lt_units.mpr between
    linarith
  rcases Nat.lt_trichotomy m n with less | same | greater
  · exact absurd less (distinct h h')
  · exact same
  · exact absurd greater (distinct h' h)

/-- Rounding is monotone. -/
theorem mono (h : Nearest x m) (h' : Nearest y n) (le : x ≤ y) : m ≤ n := by
  refine Nat.le_of_not_lt fun less => ?_
  have high := h'.le_middle h.le less
  have low := h.middle_le h'.le less
  obtain rfl : x = y := by linarith
  exact absurd (h.unique h') (Nat.ne_of_gt less)

end Nearest

/-! ## Rounding by one division -/

theorem log2_of_lt {t : Nat} (short : t < 2 ^ 53) : t.log2 - 52 = 0 := by
  rcases Nat.eq_zero_or_pos t with rfl | pos
  · rfl
  · have := (Nat.log2_lt (Nat.ne_of_gt pos)).mpr short
    omega

/-- The quotient is cut to 53 digits, unless it has fewer anyway. -/
theorem quotient_bounds (t : Nat) : (t.log2 - 52 = 0 ∨ 2 ^ 52 ≤ t / 2 ^ (t.log2 - 52)) ∧
    t / 2 ^ (t.log2 - 52) < 2 ^ 53 := by
  rcases Nat.lt_or_ge t (2 ^ 53) with short | long
  · rw [log2_of_lt short, Nat.pow_zero, Nat.div_one]
    exact ⟨.inl rfl, short⟩
  · have pos : t ≠ 0 := Nat.ne_of_gt (Nat.lt_of_lt_of_le (Nat.two_pow_pos 53) long)
    have digits : 53 ≤ t.log2 := (Nat.le_log2 pos).mpr long
    obtain ⟨s, shift⟩ : ∃ s, t.log2 = 52 + s := Nat.exists_eq_add_of_le (by omega)
    have low : 2 ^ (52 + s) ≤ t := shift ▸ Nat.log2_self_le pos
    have high : t < 2 ^ (53 + s) := by
      have lt := Nat.lt_log2_self (n := t)
      rwa [shift, Nat.add_right_comm] at lt
    rw [shift, Nat.add_sub_cancel_left]
    refine ⟨.inr ?_, ?_⟩
    · rwa [Nat.le_div_iff_mul_le (Nat.two_pow_pos s), ← Nat.pow_add]
    · rwa [Nat.div_lt_iff_lt_mul (Nat.two_pow_pos s), ← Nat.pow_add]

/-- Which way to go from the magnitude below `x`: down if `x` is not behind the middle, and up if it
is not in front of it. In the middle the parity decides. -/
inductive Rounds (x : ℚ) (m : Nat) : Nat → Prop where
  | down : 2 * x ≤ unitsOfMagnitude m + unitsOfMagnitude (m + 1) →
    (2 * x = unitsOfMagnitude m + unitsOfMagnitude (m + 1) → m % 2 = 0) → Rounds x m 0
  | up : unitsOfMagnitude m + unitsOfMagnitude (m + 1) ≤ 2 * x →
    (2 * x = unitsOfMagnitude m + unitsOfMagnitude (m + 1) → m % 2 = 1) → Rounds x m 1

theorem nearest_of_rounds {way : Nat} (low : unitsOfMagnitude m ≤ x)
    (high : x < unitsOfMagnitude (m + 1)) (rounds : Rounds x m way) :
    Nearest x (min (m + way) infinityMagnitude) := by
  rcases Nat.lt_or_ge infinityMagnitude (m + way) with beyond | inside
  · have le : infinityMagnitude ≤ m := by
      cases rounds <;> omega
    rw [Nat.min_eq_right (Nat.le_of_lt beyond)]
    exact nearest_infinity (le_trans (units_le_units.mpr le) low)
  rw [Nat.min_eq_left inside]
  cases rounds with
  | down half tie =>
    refine nearest_of_between inside (fun k follows => ?_) fun _ => ⟨half, tie⟩
    have less : (unitsOfMagnitude k : ℚ) < unitsOfMagnitude m :=
      units_lt_units.mpr (Nat.lt_of_succ_le (Nat.le_of_eq follows))
    rw [Nat.add_zero]
    exact ⟨by linarith, fun same => by linarith⟩
  | up half tie =>
    refine nearest_of_between inside (fun k follows => ?_) fun _ => ?_
    · obtain rfl : k = m := Nat.succ.inj follows
      refine ⟨half, fun same => ?_⟩
      have odd := tie same.symm
      omega
    · have less : (unitsOfMagnitude (m + 1) : ℚ) < unitsOfMagnitude (m + 1 + 1) :=
        units_lt_units.mpr (Nat.lt_succ_self _)
      exact ⟨by linarith, fun same => by linarith⟩

/-- A quotient of 53 digits and its rest say between which magnitudes a fraction is, and where in
between. -/
theorem nearest_of_quotient {num den shift q rest way : Nat} (pos : 0 < den)
    (full : shift = 0 ∨ 2 ^ 52 ≤ q) (short : q < 2 ^ 53) (split : num = den * 2 ^ shift * q + rest)
    (lt : rest < den * 2 ^ shift)
    (rounds : way = 0 ∧ 2 * rest ≤ den * 2 ^ shift ∧ (2 * rest = den * 2 ^ shift → q % 2 = 0) ∨
      way = 1 ∧ den * 2 ^ shift ≤ 2 * rest ∧ (2 * rest = den * 2 ^ shift → q % 2 = 1)) :
    Nearest (num / den : ℚ) (min (shift * perExponent + q + way) infinityMagnitude) := by
  have den_pos : (0 : ℚ) < den := Nat.cast_pos.mpr pos
  have parity : (shift * perExponent + q) % 2 = q % 2 := by
    rw [perExponent]
    omega
  have here : (unitsOfMagnitude (shift * perExponent + q) : ℚ) = q * 2 ^ shift := by
    rw [unitsOfMagnitude_add full (Nat.le_of_lt short), Nat.cast_mul, Nat.cast_pow, Nat.cast_ofNat]
  have next : (unitsOfMagnitude (shift * perExponent + q + 1) : ℚ) = (q + 1) * 2 ^ shift := by
    rw [Nat.add_assoc, unitsOfMagnitude_add (full.imp_right Nat.le_succ_of_le) short, Nat.cast_mul,
      Nat.cast_pow, Nat.cast_ofNat, Nat.cast_add_one]
  generalize shift * perExponent + q = m at *
  have value : (num / den : ℚ) = q * 2 ^ shift + rest / den := by
    rw [split]
    push_cast
    field_simp
  have middle : 2 * (num / den : ℚ) = unitsOfMagnitude m + unitsOfMagnitude (m + 1) +
      ((2 * rest : Nat) - (den * 2 ^ shift : Nat) : ℚ) / den := by
    rw [value, here, next]
    push_cast
    field_simp
    ring
  refine nearest_of_rounds ?_ ?_ ?_
  · rw [value, here]
    exact le_add_of_nonneg_right (by positivity)
  · have part_lt : (rest / den : ℚ) < 2 ^ shift := by
      rw [div_lt_iff₀ den_pos, mul_comm]
      exact_mod_cast lt
    rw [value, next]
    linarith
  · rcases rounds with ⟨rfl, half, tie⟩ | ⟨rfl, half, tie⟩
    · refine .down ?_ fun same => ?_
      · rw [middle, add_le_iff_nonpos_right]
        exact div_nonpos_of_nonpos_of_nonneg (sub_nonpos.mpr (Nat.cast_le.mpr half)) den_pos.le
      · rw [middle, add_eq_left, div_eq_zero_iff, sub_eq_zero, Nat.cast_inj] at same
        rw [parity]
        exact tie (same.resolve_right den_pos.ne')
    · refine .up ?_ fun same => ?_
      · rw [middle, le_add_iff_nonneg_right]
        exact div_nonneg (sub_nonneg.mpr (Nat.cast_le.mpr half)) den_pos.le
      · rw [middle, add_eq_left, div_eq_zero_iff, sub_eq_zero, Nat.cast_inj] at same
        rw [parity]
        exact tie (same.resolve_right den_pos.ne')

/-- One division rounds correctly. -/
theorem nearest_nearestMagnitude (num : Nat) {den : Nat} (pos : 0 < den) :
    Nearest (num / den : ℚ) (nearestMagnitude num den) := by
  obtain ⟨full, short⟩ := quotient_bounds (num / den)
  rw [Nat.div_div_eq_div_mul] at full short
  refine nearest_of_quotient pos full short (Nat.div_add_mod num _).symm
    (Nat.mod_lt num (Nat.mul_pos pos (Nat.two_pow_pos _))) ?_
  generalize den * 2 ^ ((num / den).log2 - 52) = step
  split
  next up =>
    simp only [Bool.or_eq_true, Bool.and_eq_true, decide_eq_true_eq, beq_iff_eq] at up
    exact .inr ⟨rfl, by omega, by omega⟩
  next down =>
    simp only [Bool.or_eq_true, Bool.and_eq_true, decide_eq_true_eq, beq_iff_eq] at down
    exact .inl ⟨rfl, by omega, by omega⟩

/-- The nearest magnitude is what one division gives. -/
theorem nearestMagnitude_eq_iff (num : Nat) {den : Nat} (pos : 0 < den) :
    nearestMagnitude num den = m ↔ Nearest (num / den : ℚ) m :=
  ⟨fun same => same ▸ nearest_nearestMagnitude num pos, (nearest_nearestMagnitude num pos).unique⟩

/-- As many units as a magnitude has are not rounded. -/
theorem nearestMagnitude_units (le : m ≤ infinityMagnitude) :
    nearestMagnitude (unitsOfMagnitude m) 1 = m := by
  rw [nearestMagnitude_eq_iff _ Nat.one_pos, Nat.cast_one, div_one]
  exact nearest_units le

/-! ## What is close -/

/-- Neighbouring magnitudes are no farther apart than one part in `2 ^ 53`. -/
theorem units_le_gap (m : Nat) : (unitsOfMagnitude (m + 1) : ℚ) ≤
    2 ^ 53 * (unitsOfMagnitude (m + 1) - unitsOfMagnitude m) := by
  obtain ⟨shift, q, rfl, full, lt⟩ := exists_digits m
  rw [Nat.add_assoc, unitsOfMagnitude_add full (Nat.le_of_lt lt),
    unitsOfMagnitude_add (full.imp_right Nat.le_succ_of_le) lt]
  have digits : ((q + 1 : Nat) : ℚ) ≤ 2 ^ 53 := by exact_mod_cast lt
  have power : (0 : ℚ) < (2 ^ shift : Nat) := by positivity
  push_cast at *
  nlinarith

/-- What is off by less than one part in `2 ^ 54` is rounded back. -/
theorem nearest_of_close (inside : m ≤ infinityMagnitude)
    (close : 2 ^ 54 * |x - unitsOfMagnitude m| < unitsOfMagnitude m) : Nearest x m := by
  obtain ⟨lower, upper⟩ := abs_lt.mp ((lt_div_iff₀' (by norm_num)).mpr close)
  refine nearest_of_between inside ?_ fun _ => ?_
  · rintro k rfl
    have gap := units_le_gap k
    exact ⟨by linarith, fun same => by linarith⟩
  · have gap := units_le_gap m
    have next : (unitsOfMagnitude m : ℚ) < unitsOfMagnitude (m + 1) :=
      units_lt_units.mpr (Nat.lt_succ_self m)
    exact ⟨by linarith, fun same => by linarith⟩

end ShapeScript.Binary64
