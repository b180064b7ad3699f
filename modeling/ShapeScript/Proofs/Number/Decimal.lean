import ShapeScript.Number.Decimal
import ShapeScript.Proofs.Number.Rounding

/-!
# Decimal numerals

A numeral is read as the number nearest to its exact value (`Decimal.nearest_nearestMagnitude`), so
numerals with the same value are read alike, and a larger one is not read as a smaller number
(`Decimal.nearestMagnitude_mono`). That very large and very small ones are not computed makes no
difference. Dropping final zeros keeps the value (`Decimal.value_reduce`).
-/

namespace ShapeScript

namespace Binary64

theorem unitsPerOne_pos : 0 < unitsPerOne := by decide +kernel

/-- Infinity counts as the power of two that follows the finite numbers. -/
theorem units_infinity : unitsOfMagnitude infinityMagnitude = 2 ^ 1024 * unitsPerOne := by
  decide +kernel

/-- The exact value of a magnitude. -/
def exactValue (m : Nat) : ℚ := unitsOfMagnitude m / unitsPerOne

theorem exactValue_mul (m : Nat) : exactValue m * unitsPerOne = unitsOfMagnitude m :=
  div_mul_cancel₀ _ (Nat.cast_ne_zero.mpr (Nat.ne_of_gt unitsPerOne_pos))

end Binary64

namespace Decimal

open Binary64

/-- The exact value. -/
def value (d : Decimal) : ℚ := d.digits * 10 ^ d.exponent

variable {d d' : Decimal} {m : Nat}

/-! ## Reading -/

theorem value_of_nonneg (pos : 0 ≤ d.exponent) :
    d.value * unitsPerOne = (d.digits * Nat.pow 10 d.exponent.toNat * unitsPerOne : Nat) / (1 : Nat) := by
  have power : (10 : ℚ) ^ d.exponent = 10 ^ d.exponent.toNat := by
    rw [← zpow_natCast, Int.toNat_of_nonneg pos]
  rw [value, power, Nat.pow_eq]
  push_cast
  rw [div_one]

theorem value_of_neg (neg : d.exponent < 0) :
    d.value * unitsPerOne = (d.digits * unitsPerOne : Nat) / (Nat.pow 10 (-d.exponent).toNat : Nat) := by
  have power : (10 : ℚ) ^ d.exponent = (10 ^ (-d.exponent).toNat)⁻¹ := by
    rw [← zpow_natCast, Int.toNat_of_nonneg (by omega), zpow_neg, inv_inv]
  rw [value, power, Nat.pow_eq]
  push_cast
  ring

theorem two_pow_le_ten_pow {a b : Nat} (le : a ≤ 3 * b) : 2 ^ a ≤ 10 ^ b := by
  calc 2 ^ a ≤ 2 ^ (3 * b) := Nat.pow_le_pow_right (by decide) le
    _ = 8 ^ b := Nat.pow_mul 2 3 b
    _ ≤ 10 ^ b := Nat.pow_le_pow_left (by decide) b

/-- Beyond the reach above, every value is infinite. -/
theorem nearest_infinity_of_reach (some : d.digits ≠ 0) (large : (reach : Int) < d.exponent) :
    Nearest (d.value * unitsPerOne) infinityMagnitude := by
  refine nearest_infinity ?_
  have digits : (1 : ℚ) ≤ d.digits := Nat.one_le_cast.mpr (Nat.pos_of_ne_zero some)
  have huge : (2 ^ 1024 : Nat) ≤ (10 : ℚ) ^ d.exponent := by
    calc ((2 ^ 1024 : Nat) : ℚ) ≤ (10 ^ reach : Nat) := Nat.cast_le.mpr (two_pow_le_ten_pow (by decide))
      _ = 10 ^ (reach : Int) := by rw [Nat.cast_pow, Nat.cast_ofNat, zpow_natCast]
      _ ≤ 10 ^ d.exponent := zpow_le_zpow_right₀ (by norm_num) (Int.le_of_lt large)
  rw [units_infinity, value, Nat.cast_mul]
  refine mul_le_mul_of_nonneg_right (le_trans huge ?_) (Nat.cast_nonneg _)
  exact le_mul_of_one_le_left (by positivity) digits

/-- Beyond the reach below, every value is zero. -/
theorem nearest_zero_of_reach (small : d.exponent < -(reach + d.digits.log2 + 1 : Nat)) :
    Nearest (d.value * unitsPerOne) 0 := by
  have least : (unitsOfMagnitude 0 + unitsOfMagnitude (0 + 1) : ℚ) = 1 := by
    rw [unitsOfMagnitude_subnormal (by decide), unitsOfMagnitude_subnormal (by decide)]
    norm_num
  obtain ⟨places, exponent⟩ : ∃ places : Nat, d.exponent = -places :=
    ⟨(-d.exponent).toNat, by omega⟩
  have least_unit : 2 * unitsPerOne ≤ 10 ^ (reach + 1) := by decide +kernel
  have bound : d.digits * (2 * unitsPerOne) < 10 ^ places := by
    calc d.digits * (2 * unitsPerOne) < 2 ^ (d.digits.log2 + 1) * (2 * unitsPerOne) :=
          Nat.mul_lt_mul_of_pos_right Nat.lt_log2_self (Nat.mul_pos (by decide) unitsPerOne_pos)
      _ ≤ 10 ^ (d.digits.log2 + 1) * 10 ^ (reach + 1) :=
          Nat.mul_le_mul (two_pow_le_ten_pow (by omega)) least_unit
      _ = 10 ^ (d.digits.log2 + 1 + (reach + 1)) := (Nat.pow_add ..).symm
      _ ≤ 10 ^ places := Nat.pow_le_pow_right (by decide) (by omega)
  have less : 2 * (d.value * unitsPerOne) < 1 := by
    have power : (0 : ℚ) < 10 ^ places := by positivity
    have bound' : (d.digits * (2 * unitsPerOne) : ℚ) < 10 ^ places := by exact_mod_cast bound
    rw [value, exponent, zpow_neg, zpow_natCast]
    calc 2 * (d.digits * (10 ^ places)⁻¹ * unitsPerOne : ℚ)
        = d.digits * (2 * unitsPerOne) / 10 ^ places := by ring
      _ < 1 := (div_lt_one power).mpr bound'
  refine nearest_of_between (Nat.zero_le _) (fun k follows => by omega) fun _ => ?_
  rw [least]
  exact ⟨less.le, fun same => absurd same less.ne⟩

/-- A numeral is read as the number nearest to its value. -/
theorem nearest_nearestMagnitude (d : Decimal) :
    Nearest (d.value * unitsPerOne) d.nearestMagnitude := by
  rw [nearestMagnitude]
  split
  next none =>
    have zero : d.value * unitsPerOne = unitsOfMagnitude 0 := by
      rw [unitsOfMagnitude_subnormal (by decide), value, none, Nat.cast_zero, zero_mul, zero_mul]
    rw [zero]
    exact nearest_units (Nat.zero_le _)
  next some =>
    split
    next large => exact nearest_infinity_of_reach some large
    next =>
      split
      next small => exact nearest_zero_of_reach small
      next =>
        split
        next pos =>
          rw [value_of_nonneg pos]
          exact Binary64.nearest_nearestMagnitude _ Nat.one_pos
        next neg =>
          rw [value_of_neg (Int.not_le.mp neg)]
          exact Binary64.nearest_nearestMagnitude _ (Nat.pow_pos (by decide))

/-- What a numeral is read as depends on its value only. -/
theorem nearestMagnitude_eq_of_value_eq (same : d.value = d'.value) :
    d.nearestMagnitude = d'.nearestMagnitude :=
  (same ▸ nearest_nearestMagnitude d).unique (nearest_nearestMagnitude d')

/-- Reading is monotone. -/
theorem nearestMagnitude_mono (le : d.value ≤ d'.value) : d.nearestMagnitude ≤ d'.nearestMagnitude :=
  (nearest_nearestMagnitude d).mono (nearest_nearestMagnitude d')
    (mul_le_mul_of_nonneg_right le (Nat.cast_nonneg _))

theorem nearestMagnitude_le (inside : m ≤ infinityMagnitude) (le : d.value ≤ exactValue m) :
    d.nearestMagnitude ≤ m := by
  refine (nearest_nearestMagnitude d).mono (nearest_units inside) ?_
  rw [← exactValue_mul]
  exact mul_le_mul_of_nonneg_right le (Nat.cast_nonneg _)

theorem le_nearestMagnitude (inside : m ≤ infinityMagnitude) (le : exactValue m ≤ d.value) :
    m ≤ d.nearestMagnitude := by
  refine (nearest_units inside).mono (nearest_nearestMagnitude d) ?_
  rw [← exactValue_mul]
  exact mul_le_mul_of_nonneg_right le (Nat.cast_nonneg _)

/-! ## Final zeros -/

theorem value_reduce (digits : Nat) (exponent : Int) :
    (reduce digits exponent).value = digits * 10 ^ exponent := by
  fun_induction reduce digits exponent with
  | case1 digits exponent zero ih =>
    obtain ⟨shorter, rfl⟩ : 10 ∣ digits := Nat.dvd_of_mod_eq_zero zero.2
    rw [ih, Nat.mul_div_cancel_left _ (by decide), zpow_add_one₀ (by norm_num)]
    push_cast
    ring
  | case2 => rfl

theorem digits_reduce_le (digits : Nat) (exponent : Int) : (reduce digits exponent).digits ≤ digits := by
  fun_induction reduce digits exponent with
  | case1 digits exponent zero ih => exact Nat.le_trans ih (Nat.div_le_self ..)
  | case2 => exact Nat.le_refl _

/-- What is left has no final zero. -/
theorem digits_reduce_mod {digits : Nat} (pos : 0 < digits) (exponent : Int) :
    (reduce digits exponent).digits % 10 ≠ 0 := by
  fun_induction reduce digits exponent with
  | case1 digits exponent zero ih => exact ih (by omega)
  | case2 digits exponent last => exact fun zero => last ⟨Nat.ne_of_gt pos, zero⟩

end Decimal
end ShapeScript
