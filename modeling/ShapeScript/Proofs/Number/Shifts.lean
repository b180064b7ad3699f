import Mathlib
import ShapeScript.Number.Integer
import ShapeScript.Proofs.Number.Value
import ShapeScript.Proofs.Compile.Operands

/-!
# Shifts and complement in integers

The operators on 64-bit integers, said without the 64 bits: operands are cut to integers
(`Integer.toInt_ofNumber`), a shift to the left multiplies by a power of two and wraps around, one to
the right divides by it toward the floor, and the complement is the negation less one
(`Integer.shifts_exact`).
-/

namespace ShapeScript.Integer

open Float.Model Float.Model.UnpackedFloat

/-- The integer that an operand counts as: cut toward zero and clamped, and zero for a NaN. -/
def cut (v : Float) : Int :=
  match v.toModel.unpack with
  | .notANumber | .zero _ => 0
  | .infinity .negative => -2 ^ 63
  | .infinity .positive => 2 ^ 63 - 1
  | .finite s q e _ => max (-2 ^ 63) (min (Binary64.towardZero (s.apply q * 2 ^ e)) (2 ^ 63 - 1))

theorem toInt_ofIntClamp (n : Int) :
    (Int64.ofIntClamp n).toInt = max (-2 ^ 63) (min n (2 ^ 63 - 1)) := by
  have least : Int64.minValue.toInt = -2 ^ 63 := rfl
  have largest : Int64.maxValue.toInt = 2 ^ 63 - 1 := rfl
  rw [Int64.ofIntClamp]
  split
  next above =>
    split
    next below =>
      rw [Int64.toInt_ofIntLE]
      omega
    next below => omega
  next above => omega

theorem toInt_ofNumber (v : Float) : (ofNumber v).toInt = cut v := by
  rw [ofNumber, toInt_ofIntClamp, cut]
  cases kind : v.toModel.unpack with
  | notANumber =>
    rw [Binary64.toInt_notANumber kind]
    rfl
  | zero s =>
    rw [Binary64.toInt_zero kind]
    rfl
  | infinity s =>
    rw [Binary64.toInt_infinity kind]
    cases s <;> decide +kernel
  | finite s q e pos => rw [Binary64.toInt_finite kind]

/-! ## Machine integers -/

/-- How far a shift goes. -/
def shiftCount (n : Int64) : Nat := (n.toInt % 64).toNat

theorem toNat_smod (n : Int64) : (n.toBitVec.smod 64).toNat = shiftCount n := by
  have rest : (n.toBitVec.smod 64).toInt = n.toInt % 64 := by
    rw [BitVec.toInt_smod]
    exact Int.fmod_eq_emod_of_nonneg _ (by decide)
  rw [BitVec.toInt_eq_toNat_cond] at rest
  have lt := (n.toBitVec.smod 64).isLt
  rw [shiftCount]
  split at rest <;> omega

theorem toInt_shiftLeft (x n : Int64) :
    (x <<< n).toInt = (x.toInt * 2 ^ shiftCount n).bmod (2 ^ 64) := by
  have unsigned : x.toInt = (x.toBitVec.toNat : Int).bmod (2 ^ 64) := BitVec.toInt_eq_toNat_bmod _
  have shifted : (x <<< n).toInt = (x.toBitVec <<< shiftCount n).toInt := by
    rw [← toNat_smod]
    exact congrArg BitVec.toInt (Int64.toBitVec_shiftLeft x n)
  rw [shifted, BitVec.toInt_shiftLeft, Nat.shiftLeft_eq, unsigned, Int.bmod_mul_bmod, Nat.cast_mul,
    Nat.cast_pow, Nat.cast_ofNat]

theorem toInt_shiftRight (x n : Int64) : (x >>> n).toInt = x.toInt / 2 ^ shiftCount n := by
  have shifted : (x >>> n).toInt = (x.toBitVec.sshiftRight (shiftCount n)).toInt := by
    rw [← toNat_smod]
    exact congrArg BitVec.toInt (Int64.toBitVec_shiftRight x n)
  rw [shifted, BitVec.toInt_sshiftRight, Int.shiftRight_eq_div_pow, Nat.cast_pow, Nat.cast_ofNat]
  rfl

/-- The complement of an integer never leaves the range. -/
theorem toInt_complement (x : Int64) : (~~~x).toInt = -x.toInt - 1 := by
  have low := Int64.le_toInt x
  have high := Int64.toInt_lt x
  rw [Int64.toInt_not]
  exact Int.bmod_eq_of_le (by omega) (by omega)

/-! ## Operators -/

theorem shiftRight_eq (l r : Float) : shiftRight l r =
    Binary64.ofInt ⌊(cut l : ℚ) / 2 ^ shiftCount (ofNumber r)⌋ := by
  have power : (2 : ℚ) ^ shiftCount (ofNumber r) = (2 ^ shiftCount (ofNumber r) : Nat) := by
    rw [Nat.cast_pow, Nat.cast_ofNat]
  rw [shiftRight, toNumber, toInt_shiftRight, toInt_ofNumber, power, Rat.floor_intCast_div_natCast,
    Nat.cast_pow, Nat.cast_ofNat]

theorem complement_eq (v : Float) : complement v = Binary64.ofInt (-cut v - 1) := by
  rw [complement, toNumber, toInt_complement, toInt_ofNumber]

/-- Shifts and complement compute with integers, whatever numbers the operands are. The count of a
shift is taken modulo 64, and only a shift to the left wraps around. All three always answer. -/
theorem shifts_exact (l r : Float) : ∃ count : Nat, count < 64 ∧ (count : Int) = cut r % 64 ∧
    (∃ n : Int, -2 ^ 63 ≤ n ∧ n < 2 ^ 63 ∧ n ≡ cut l * 2 ^ count [ZMOD 2 ^ 64] ∧
      BinaryOp.shiftLeft.Answers l r (Binary64.ofInt n)) ∧
    BinaryOp.shiftRight.Answers l r (Binary64.ofInt ⌊(cut l : ℚ) / 2 ^ count⌋) ∧
    UnaryOp.complement.Answers l (Binary64.ofInt (-cut l - 1)) := by
  refine ⟨shiftCount (ofNumber r), ?_, ?_, ?_, ?_, ?_⟩
  · rw [shiftCount]
    omega
  · rw [← toInt_ofNumber, shiftCount]
    omega
  · let n := (ofNumber l <<< ofNumber r).toInt
    have wraps : n = (cut l * 2 ^ shiftCount (ofNumber r)).bmod (2 ^ 64) := by
      rw [← toInt_ofNumber]
      exact toInt_shiftLeft _ _
    refine ⟨n, Int64.le_toInt _, Int64.toInt_lt _, ?_, BinaryOp.shiftLeft.answers rfl l r⟩
    rw [wraps]
    exact Int.bmod_emod
  · exact shiftRight_eq l r ▸ BinaryOp.shiftRight.answers rfl l r
  · exact complement_eq l ▸ UnaryOp.answers rfl l

/-- A negative count is one from the other end: the fraction goes, and `-5` is shifted by one. -/
example : shiftLeft (-5.5) (-63) = -10 := by decide +kernel

end ShapeScript.Integer
