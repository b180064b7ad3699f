import Mathlib
import ShapeScript.Number.Nearness
import ShapeScript.Proofs.Number.Value
import ShapeScript.Proofs.Compile.Operands

/-!
# How far near-equality reaches

The place of a pattern fits in 64 bits (`Nearness.toInt_rank`), the distance of two places need not.
Where it wraps, patterns count as near that are not: those at a distance of exactly `2 ^ 63`, and
those at nearly `2 ^ 64`, which are both NaNs (`Nearness.near_iff_distance`).
-/

namespace ShapeScript.Nearness

/-- The place of a pattern in the order of the numbers: its low bits, negated below zero. -/
def place (bits : UInt64) : Int :=
  let low : Nat := bits.toNat % 2 ^ 63
  if 2 ^ 63 ≤ bits.toNat then -low else low

/-- How far two patterns are apart. -/
def distance (a b : UInt64) : Nat := (place a - place b).natAbs

theorem toInt_rank (bits : UInt64) : (rank bits).toInt = place bits := by
  have signed : bits.toInt64.toInt = if 2 * bits.toNat < 2 ^ 64 then (bits.toNat : Int)
      else bits.toNat - 2 ^ 64 := BitVec.toInt_eq_toNat_cond _
  have lt : bits.toNat < 2 ^ 64 := bits.toNat_lt
  have negative : bits.toInt64 < 0 ↔ 2 ^ 63 ≤ bits.toNat := by
    rw [Int64.lt_iff_toInt_lt, signed]
    change _ < (0 : Int) ↔ _
    split <;> omega
  rw [rank, place]
  simp only [negative]
  split
  next high =>
    have exact_difference : (Int64.minValue - bits.toInt64).toInt = -2 ^ 63 - bits.toInt64.toInt := by
      rw [Int64.toInt_sub, Int64.toInt_minValue, signed, if_neg (by omega)]
      exact Int.bmod_eq_of_le (by omega) (by omega)
    rw [exact_difference, signed, if_neg (by omega)]
    omega
  next low =>
    rw [signed, if_pos (by omega)]
    omega

/-- The least integer has no absolute value and stays as it is. -/
theorem toInt_abs (n : Int64) :
    n.abs.toInt = if n.toInt = -2 ^ 63 then -2 ^ 63 else (n.toInt.natAbs : Int) := by
  have least : n.toBitVec = BitVec.intMin 64 ↔ n.toInt = -2 ^ 63 := by
    rw [← BitVec.toInt_inj]
    rfl
  have abs : n.abs.toInt = _ := BitVec.toInt_abs_eq_natAbs (x := n.toBitVec)
  rw [abs]
  simp only [least]
  rfl

theorem near_iff_bmod (a b : UInt64) : near a b = true ↔
    (place a - place b).bmod (2 ^ 64) = -2 ^ 63 ∨
      ((place a - place b).bmod (2 ^ 64)).natAbs ≤ 450359963 := by
  have reach : tolerance.toInt = 450359963 := rfl
  rw [near, decide_eq_true_iff, Int64.le_iff_toInt_le, toInt_abs, Int64.toInt_sub, toInt_rank,
    toInt_rank, reach]
  split <;> omega

theorem natAbs_place (bits : UInt64) : (place bits).natAbs = bits.toNat % 2 ^ 63 := by
  rw [place]
  split <;> omega

theorem near_iff_distance (a b : UInt64) : near a b = true ↔
    distance a b ≤ 450359963 ∨ distance a b = 2 ^ 63 ∨ 2 ^ 64 - 450359963 ≤ distance a b := by
  have place_a := natAbs_place a
  have place_b := natAbs_place b
  rw [near_iff_bmod, distance, Int.bmod_def]
  split <;> omega

/-- Numbers are never so far apart that their distance wraps around to a small one. -/
theorem distance_lt {a b : UInt64} (ha : (Float.ofBits a).isNaN = false)
    (hb : (Float.ofBits b).isNaN = false) : distance a b < 2 ^ 64 - 450359963 := by
  have place_a := natAbs_place a
  have place_b := natAbs_place b
  have low_a := Binary64.mod_signBit_le_of_not_isNaN ha
  have low_b := Binary64.mod_signBit_le_of_not_isNaN hb
  rw [Binary64.signBit, Binary64.infinityMagnitude, Binary64.perExponent] at low_a low_b
  rw [distance]
  omega

/-- Two patterns are near exactly if their distance, taken around the circle of 64-bit integers, is
small or the largest there is. Nearness is reflexive and symmetric, and between numbers the only
distance that wraps is the largest one, that of `2` and `-2`.

The operator always answers. What is said of it is about `Float`s, which have one NaN: it does not reach
the other NaN patterns, for which the first part alone holds. -/
theorem near_extent (a b : UInt64) :
    (near a b = true ↔ distance a b ≤ 450359963 ∨ distance a b = 2 ^ 63 ∨
      2 ^ 64 - 450359963 ≤ distance a b) ∧
    near a a = true ∧ near a b = near b a ∧
    ((Float.ofBits a).isNaN = false → (Float.ofBits b).isNaN = false →
      (near a b = true ↔ distance a b ≤ 450359963 ∨ distance a b = 2 ^ 63)) ∧
    (∀ l r : Float, BinaryOp.near.Answers l r (if near l.toBits r.toBits then 1 else 0)) ∧
    BinaryOp.near.Answers 2 (-2) 1 := by
  refine ⟨near_iff_distance a b, ?_, ?_, ?_, ?_, ?_⟩
  · have none : distance a a = 0 := by rw [distance, Int.sub_self, Int.natAbs_zero]
    rw [near_iff_distance, none]
    exact .inl (Nat.zero_le _)
  · have same : distance a b = distance b a := by
      rw [distance, ← Int.natAbs_neg, Int.neg_sub, distance]
    rw [Bool.eq_iff_iff, near_iff_distance, near_iff_distance, same]
  · intro ha hb
    have lt := distance_lt ha hb
    rw [near_iff_distance]
    omega
  · intro l r
    have answers := BinaryOp.near.answers rfl l r
    rwa [BinaryOp.apply, Run.ofBool] at answers
  · have opposite : BinaryOp.near.apply 2 (-2) = 1 := by decide +kernel
    have answers := BinaryOp.near.answers rfl 2 (-2)
    rwa [opposite] at answers

/-- Two and minus two, and a NaN with the most negative of all NaN patterns. -/
theorem near_extent_of_opposites :
    (Float.ofBits 0x4000000000000000).isNaN = false ∧
    (Float.ofBits 0xC000000000000000).isNaN = false ∧
    distance 0x4000000000000000 0xC000000000000000 = 2 ^ 63 ∧
    near 0x4000000000000000 0xC000000000000000 = true ∧
    near 0x7FFFFFFFFFFFFFFF 0xFFFFFFFFFFFFFFFF = true := by
  have two : (Float.ofBits 0x4000000000000000).isNaN = false := by decide +kernel
  have minus_two : (Float.ofBits 0xC000000000000000).isNaN = false := by decide +kernel
  have apart : distance 0x4000000000000000 0xC000000000000000 = 2 ^ 63 := by decide +kernel
  have around : 2 ^ 64 - 450359963 ≤ distance 0x7FFFFFFFFFFFFFFF 0xFFFFFFFFFFFFFFFF := by
    decide +kernel
  exact ⟨two, minus_two, apart, ((near_extent _ _).2.2.2.1 two minus_two).mpr (.inr apart),
    (near_extent _ _).1.mpr (.inr (.inr around))⟩

end ShapeScript.Nearness
