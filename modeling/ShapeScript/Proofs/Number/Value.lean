import Mathlib
import ShapeScript.Number.Binary64

/-!
# What a pattern stands for

A bit pattern, taken without its sign, says whether it stands for a NaN, an infinity, a zero or a
finite number, and how many units that number has (`Binary64.describes_unpack`). The exact value of
a finite number is a fraction, and `Binary64.toInt` cuts it toward zero (`Binary64.toInt_finite`).
-/

namespace ShapeScript.Binary64

open Float.Model Float.Model.UnpackedFloat

/-! ## The parts of a pattern -/

/-- Exponent and significand, one after the other, are the pattern without its sign. -/
theorem mod_signBit (b : BitVec 64) : b.toNat % signBit =
    (@unpackExponent .binary64 b).toNat * perExponent +
      (@unpackMantissa .binary64 b).toNat := by
  rw [unpackExponent_def, unpackMantissa_def, BitVec.extractLsb'_toNat, BitVec.extractLsb'_toNat,
    Nat.shiftRight_eq_div_pow, Nat.shiftRight_zero, signBit, perExponent]
  change _ = b.toNat / 2 ^ 52 % 2 ^ 11 * _ + b.toNat % 2 ^ 52
  omega

/-- The sign of a pattern. -/
def signOf (b : BitVec 64) : Sign := if b.toNat / signBit == 1 then .negative else .positive

theorem ofBitVec_unpackSign (b : BitVec 64) :
    Sign.ofBitVec (@unpackSign .binary64 b) = signOf b := by
  have bit : (@unpackSign .binary64 b).toNat = b.toNat / signBit := by
    rw [unpackSign_def, BitVec.extractLsb'_toNat, Nat.shiftRight_eq_div_pow]
    change b.toNat / 2 ^ 63 % 2 ^ 1 = b.toNat / 2 ^ 63
    omega
  rw [Sign.ofBitVec, signOf, ← bit]
  rcases BitVec.eq_zero_or_eq_one (@unpackSign .binary64 b) with zero | one
  · rw [zero]
    rfl
  · rw [one]
    rfl

theorem unitsOfMagnitude_subnormal {m : Nat} (h : m < perExponent) : unitsOfMagnitude m = m :=
  if_pos h

theorem unitsOfMagnitude_normal {x m : Nat} (hx : 0 < x) (hm : m < perExponent) :
    unitsOfMagnitude (x * perExponent + m) = (perExponent + m) * 2 ^ (x - 1) := by
  have pos : 0 < perExponent := by decide
  have large : ¬x * perExponent + m < perExponent :=
    Nat.not_lt_of_le (Nat.le_add_right_of_le (Nat.le_mul_of_pos_left _ hx))
  have rest : (x * perExponent + m) % perExponent = m := by
    rw [Nat.mul_add_mod_self_right, Nat.mod_eq_of_lt hm]
  have quotient : (x * perExponent + m) / perExponent = x := by
    rw [Nat.mul_comm, Nat.mul_add_div pos, Nat.div_eq_of_lt hm, Nat.add_zero]
  rw [unitsOfMagnitude, if_neg large, rest, quotient, Nat.add_comm m]
  rfl

/-! ## Kinds of numbers -/

/-- What an unpacked number says about the pattern that it comes from. -/
def Describes (b : BitVec 64) : UnpackedFloat → Prop
  | .notANumber => infinityMagnitude < b.toNat % signBit
  | .infinity s => s = signOf b ∧ b.toNat % signBit = infinityMagnitude
  | .zero s => s = signOf b ∧ b.toNat % signBit = 0
  | .finite s q e _ => s = signOf b ∧ b.toNat % signBit < infinityMagnitude ∧ -1074 ≤ e ∧
      unitsOfMagnitude (b.toNat % signBit) = q * 2 ^ (e + 1074).toNat

theorem describes_unpack (b : BitVec 64) : Describes b (UnpackedFloat.unpack .binary64 b) := by
  have sign := ofBitVec_unpackSign b
  have infinite : infinityMagnitude = 2047 * perExponent := rfl
  have parts := mod_signBit b
  have mantissa_lt : (@unpackMantissa .binary64 b).toNat < perExponent := BitVec.isLt _
  have exponent_lt : (@unpackExponent .binary64 b).toNat < 2048 := BitVec.isLt _
  fun_cases UnpackedFloat.unpack .binary64 b with
  | case1 mantissa exponent _ s ones zero =>
    change b.toNat % signBit = exponent.toNat * perExponent + mantissa.toNat at parts
    refine ⟨sign, ?_⟩
    rw [parts, ones, zero]
    rfl
  | case2 mantissa exponent ones payload =>
    change b.toNat % signBit = exponent.toNat * perExponent + mantissa.toNat at parts
    have pos : 0 < mantissa.toNat := Nat.pos_of_ne_zero fun zero => payload (BitVec.toNat_inj.mp zero)
    change _ < _
    rw [parts, ones, infinite]
    exact Nat.lt_add_of_pos_right pos
  | case3 mantissa exponent _ s number least zero =>
    change b.toNat % signBit = exponent.toNat * perExponent + mantissa.toNat at parts
    refine ⟨sign, ?_⟩
    rw [parts, least, zero]
    rfl
  | case4 mantissa exponent scale _ s number least payload =>
    change b.toNat % signBit = exponent.toNat * perExponent + mantissa.toNat at parts
    change mantissa.toNat < perExponent at mantissa_lt
    have magnitude : b.toNat % signBit = mantissa.toNat := by
      rw [parts, least]
      exact Nat.zero_add _
    have scale_eq : scale + 1 = -1074 := by
      change (exponent.toNat : Int) - 1075 + 1 = -1074
      rw [least]
      rfl
    refine ⟨sign, ?_, le_of_eq scale_eq.symm, ?_⟩
    · rw [magnitude, infinite]
      omega
    · rw [magnitude, unitsOfMagnitude_subnormal mantissa_lt, scale_eq]
      exact (Nat.mul_one _).symm
  | case5 mantissa exponent scale _ s number normal =>
    change b.toNat % signBit = exponent.toNat * perExponent + mantissa.toNat at parts
    change mantissa.toNat < perExponent at mantissa_lt
    change exponent.toNat < 2048 at exponent_lt
    have ne : exponent.toNat ≠ 2047 := fun ones => number (BitVec.toNat_inj.mp ones)
    have pos : 0 < exponent.toNat := Nat.pos_of_ne_zero fun zero => normal (BitVec.toNat_inj.mp zero)
    have scale_eq : scale = exponent.toNat - 1075 := rfl
    have digits : (1#1 ++ mantissa).toNat = perExponent + mantissa.toNat := by
      rw [BitVec.toNat_append, ← Nat.shiftLeft_add_eq_or_of_lt mantissa.isLt]
      rfl
    refine ⟨sign, ?_, by omega, ?_⟩
    · rw [parts, infinite]
      rw [perExponent] at mantissa_lt ⊢
      omega
    · rw [parts, unitsOfMagnitude_normal pos mantissa_lt, digits, scale_eq]
      congr 2
      omega

variable {v : Float} {s : Sign}

theorem describes (v : Float) : Describes v.toBits.toBitVec v.toModel.unpack := describes_unpack _

theorem Describes.le_infinityMagnitude {b : BitVec 64} {u : UnpackedFloat} (h : Describes b u)
    (number : u ≠ .notANumber) : b.toNat % signBit ≤ infinityMagnitude := by
  cases u with
  | notANumber => exact absurd rfl number
  | infinity s => exact Nat.le_of_eq h.2
  | zero s => exact h.2 ▸ Nat.zero_le _
  | finite s q e pos => exact Nat.le_of_lt h.2.1

/-- A pattern that stands for a number is not beyond that of infinity. -/
theorem mod_signBit_le_of_not_isNaN {bits : UInt64} (number : (Float.ofBits bits).isNaN = false) :
    bits.toNat % signBit ≤ infinityMagnitude := by
  refine (describes_unpack bits.toBitVec).le_infinityMagnitude fun nan => ?_
  have packed : (Float.Model.pack (UnpackedFloat.unpack .binary64 bits.toBitVec)).isNaN = false :=
    number
  rw [nan] at packed
  cases packed

/-- The sign bit and the pattern without it make up a number. -/
theorem ofMagnitude_magnitude (v : Float) : ofMagnitude (isNegative v) (magnitude v) = v := by
  have bits : (if isNegative v then signBit + magnitude v else magnitude v) = v.toBits.toNat := by
    have size := v.toBits.toNat_lt
    rw [isNegative, magnitude, signBit]
    split
    next one =>
      rw [beq_iff_eq] at one
      omega
    next zero =>
      rw [beq_iff_eq] at zero
      omega
  rw [ofMagnitude, bits, UInt64.ofNat_toNat, Float.ofBits_toBits]

/-- Patterns beyond that of infinity stand for no number. -/
theorem eq_nan_of_lt_magnitude (beyond : infinityMagnitude < magnitude v) : v = nan := by
  have noNumber : v.isNaN = true := by
    refine Bool.not_eq_false _ ▸ fun number => ?_
    refine Nat.not_le_of_lt beyond (mod_signBit_le_of_not_isNaN ?_)
    rwa [Float.ofBits_toBits]
  have nan' : nan.isNaN = true := by decide
  rw [Float.isNaN_eq_decide_eq_nan, decide_eq_true_eq] at noNumber nan'
  rw [noNumber, nan']

/-! ## Fractions -/

/-- The integer next to a fraction on the side of zero. -/
def towardZero (x : ℚ) : Int := if x < 0 then ⌈x⌉ else ⌊x⌋

theorem towardZero_of_nonneg {x : ℚ} (h : 0 ≤ x) : towardZero x = ⌊x⌋ := if_neg (not_lt_of_ge h)

theorem towardZero_of_neg {x : ℚ} (h : x < 0) : towardZero x = -⌊-x⌋ := by
  rw [towardZero, if_pos h, Int.floor_neg, neg_neg]

/-- Whole units are divided exactly as fractions are cut. -/
theorem floor_of_units (q : Nat) {e : Int} (least : -1074 ≤ e) :
    ⌊(q : ℚ) * 2 ^ e⌋ = (q * 2 ^ (e + 1074).toNat / unitsPerOne : Nat) := by
  have two : (2 : ℚ) ≠ 0 := by norm_num
  have one : unitsPerOne = 2 ^ 1074 := by decide +kernel
  have scaled : (q : ℚ) * 2 ^ e = (q * 2 ^ (e + 1074).toNat : Nat) / (unitsPerOne : Nat) := by
    have exponent : ((e + 1074).toNat : Int) = e + 1074 := Int.toNat_of_nonneg (by omega)
    rw [one, Nat.cast_mul, Nat.cast_pow, Nat.cast_pow, Nat.cast_ofNat, eq_div_iff (pow_ne_zero _ two),
      mul_assoc, ← zpow_natCast, ← zpow_natCast, ← zpow_add₀ two, exponent]
    rfl
  rw [scaled, Rat.floor_natCast_div_natCast, Int.natCast_ediv]

/-! ## Integer parts -/

theorem toInt_of_number (number : v.isNaN = false) :
    toInt v = (signOf v.toBits.toBitVec).apply (units v / unitsPerOne : Nat) := by
  rw [toInt, number, signOf, isNegative, if_neg Bool.false_ne_true]
  change (if (v.toBits.toNat / signBit == 1) = true then _ else _) =
    (if (v.toBits.toNat / signBit == 1) = true then Sign.negative else Sign.positive).apply _
  split <;> rfl

/-- A NaN has no integer part and counts as zero. -/
theorem toInt_notANumber (kind : v.toModel.unpack = .notANumber) : toInt v = 0 := by
  have nan : v.isNaN = true := isNaN_iff.mpr kind
  rw [toInt, if_pos nan]

/-- An infinity counts as a power of two beyond the 64-bit integers. -/
theorem toInt_infinity (kind : v.toModel.unpack = .infinity s) : toInt v = s.apply (2 ^ 1024) := by
  obtain ⟨sign, magnitude⟩ : Describes v.toBits.toBitVec (.infinity s) := kind ▸ describes v
  have number : v.isNaN = false := congrArg UnpackedFloat.isNaN kind
  have beyond : units v / unitsPerOne = 2 ^ 1024 := by
    have infinite : unitsOfMagnitude infinityMagnitude / unitsPerOne = 2 ^ 1024 := by decide +kernel
    rw [← infinite, ← magnitude]
    rfl
  rw [toInt_of_number number, ← sign, beyond, Nat.cast_pow, Nat.cast_ofNat]

theorem toInt_zero (kind : v.toModel.unpack = .zero s) : toInt v = 0 := by
  obtain ⟨-, magnitude⟩ : Describes v.toBits.toBitVec (.zero s) := kind ▸ describes v
  have number : v.isNaN = false := congrArg UnpackedFloat.isNaN kind
  have none : units v / unitsPerOne = 0 := by
    have zero : unitsOfMagnitude 0 / unitsPerOne = 0 := by decide +kernel
    rw [← zero, ← magnitude]
    rfl
  rw [toInt_of_number number, none]
  cases signOf v.toBits.toBitVec <;> rfl

/-- A finite number is cut toward zero. -/
theorem toInt_finite {q : Nat} {e : Int} {pos : 0 < q} (kind : v.toModel.unpack = .finite s q e pos) :
    toInt v = towardZero (s.apply q * 2 ^ e) := by
  obtain ⟨sign, -, least, magnitude⟩ : Describes v.toBits.toBitVec (.finite s q e pos) :=
    kind ▸ describes v
  have number : v.isNaN = false := congrArg UnpackedFloat.isNaN kind
  have scaled : units v = q * 2 ^ (e + 1074).toNat := magnitude
  have value_pos : (0 : ℚ) < q * 2 ^ e := by positivity
  rw [toInt_of_number number, ← sign, scaled, ← floor_of_units q least]
  cases s with
  | positive => exact (towardZero_of_nonneg (le_of_lt value_pos)).symm
  | negative =>
    have negative : ((Sign.negative.apply q : Int) : ℚ) * 2 ^ e = -(q * 2 ^ e) := by
      rw [Sign.apply, Int.cast_neg, neg_mul, Int.cast_natCast]
    rw [negative, towardZero_of_neg (neg_lt_zero.mpr value_pos), neg_neg]
    rfl

end ShapeScript.Binary64
