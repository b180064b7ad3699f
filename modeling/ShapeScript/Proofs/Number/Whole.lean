import Mathlib
import ShapeScript.Proofs.Number.Equality
import ShapeScript.Proofs.Number.Rounding

/-!
# Whole numbers

Integers of at most 53 binary digits are numbers themselves: `ofInt` does not round them, adding one
is exact (`Binary64.add_one_of_beq_ofInt`), and they are ordered as the integers are
(`Binary64.le_iff_of_beq_ofInt`). The facts are proved on unpacked numbers. There an integer is its
digits, shifted to 53 of them, and an exponent (`Binary64.whole`).
-/

namespace ShapeScript.Binary64

open Float.Model Float.Model.UnpackedFloat

/-! ## Digits -/

/-- The digits of a positive integer, shifted to 53 binary ones. -/
def significand (k : Nat) : Nat := k * 2 ^ 52 / 2 ^ k.log2

variable {k : Nat}

theorem le_significand (pos : 0 < k) : 2 ^ 52 ≤ significand k := by
  rw [significand, Nat.le_div_iff_mul_le (Nat.two_pow_pos _), Nat.mul_comm]
  exact Nat.mul_le_mul_right _ (Nat.log2_self_le (Nat.ne_of_gt pos))

theorem significand_pos (pos : 0 < k) : 0 < significand k :=
  Nat.lt_of_lt_of_le (Nat.two_pow_pos 52) (le_significand pos)

theorem significand_lt (k : Nat) : significand k < 2 ^ 53 := by
  have digits : k < 2 * 2 ^ k.log2 := by
    rw [← Nat.pow_succ']
    exact Nat.lt_log2_self
  rw [significand, Nat.div_lt_iff_lt_mul (Nat.two_pow_pos _)]
  omega

theorem log2_significand (pos : 0 < k) : (significand k).log2 = 52 :=
  (Nat.log2_eq_iff (Nat.ne_of_gt (significand_pos pos))).mpr ⟨le_significand pos, significand_lt k⟩

theorem log2_le (small : k ≤ 2 ^ 53) : k.log2 ≤ 53 := by
  rcases Nat.eq_zero_or_pos k with rfl | pos
  · decide
  · exact Nat.le_of_lt_succ ((Nat.log2_lt (Nat.ne_of_gt pos)).mpr (by omega))

/-- No digit is lost. -/
theorem significand_mul (pos : 0 < k) (small : k ≤ 2 ^ 53) :
    significand k * 2 ^ k.log2 = k * 2 ^ 52 := by
  refine Nat.div_mul_cancel ?_
  rcases Nat.lt_or_ge 52 k.log2 with long | short
  · have le : 2 ^ 53 ≤ k := (Nat.le_log2 (Nat.ne_of_gt pos)).mp long
    have eq : k = 2 ^ 53 := Nat.le_antisymm small le
    rw [eq, Nat.log2_two_pow]
    exact Nat.dvd_mul_right _ _
  · exact Nat.dvd_mul_left_of_dvd (Nat.pow_dvd_pow 2 short) k

/-! ## Unpacked integers -/

def sign (n : Int) : Sign := if n < 0 then .negative else .positive

/-- An integer as an unpacked number. -/
def whole (n : Int) : UnpackedFloat :=
  if h : 0 < n.natAbs then
    .finite (sign n) (significand n.natAbs) (n.natAbs.log2 - 52) (significand_pos h)
  else .zero .positive

/-- The three parts of the bit pattern of an integer other than zero. -/
def fields (n : Int) : BitVec 64 :=
  packComponents .binary64 (sign n) (.ofNat 11 (n.natAbs.log2 + 1023))
    (.ofNat 52 (significand n.natAbs))

theorem pos_of_log2 (digits : k.log2 = 52) : 0 < k := by
  rcases Nat.eq_zero_or_pos k with rfl | pos
  · cases digits
  · exact pos

theorem log2_mul_two_pow (pos : 0 < k) (s : Nat) : (k * 2 ^ s).log2 = k.log2 + s := by
  have low := Nat.mul_le_mul_right (2 ^ s) (Nat.log2_self_le (Nat.ne_of_gt pos))
  have high := Nat.mul_lt_mul_of_pos_right (Nat.lt_log2_self (n := k)) (Nat.two_pow_pos s)
  rw [← Nat.pow_add] at low high
  rw [Nat.add_right_comm] at high
  exact (Nat.log2_eq_iff (Nat.ne_of_gt (Nat.mul_pos pos (Nat.two_pow_pos s)))).mpr ⟨low, high⟩

theorem nearestMagnitude_whole (pos : 0 < k) (small : k ≤ 2 ^ 53) :
    nearestMagnitude (k * unitsPerOne) 1 = (k.log2 + 1022) * perExponent + significand k := by
  have one : unitsPerOne = 2 ^ 52 * 2 ^ 1022 := by decide +kernel
  have units : k * unitsPerOne = significand k * 2 ^ (k.log2 + 1022) := by
    rw [one, ← Nat.mul_assoc, ← significand_mul pos small, Nat.mul_assoc, ← Nat.pow_add]
  have le : (k.log2 + 1022) * perExponent + significand k ≤ infinityMagnitude := by
    have digits := log2_le small
    have lt := significand_lt k
    rw [infinityMagnitude, perExponent]
    omega
  rw [units, ← unitsOfMagnitude_add (.inr (le_significand pos)) (Nat.le_of_lt (significand_lt k)),
    nearestMagnitude_units le]

theorem toNat_packComponents (s : Sign) {e m : Nat} (he : e < 2 ^ 11) (hm : m < 2 ^ 52) :
    (packComponents .binary64 s (.ofNat 11 e) (.ofNat 52 m)).toNat =
      s.toBitVec.toNat * 2 ^ 63 + e * 2 ^ 52 + m := by
  have exponent : (BitVec.ofNat 11 e).toNat = e := Nat.mod_eq_of_lt he
  have mantissa : (BitVec.ofNat 52 m).toNat = m := Nat.mod_eq_of_lt hm
  rw [packComponents, BitVec.toNat_append, BitVec.toNat_append, exponent, mantissa,
    ← Nat.shiftLeft_add_eq_or_of_lt he, ← Nat.shiftLeft_add_eq_or_of_lt hm, Nat.shiftLeft_eq,
    Nat.shiftLeft_eq]
  omega

theorem ofBits_fields {n : Int} (pos : 0 < n.natAbs) (small : n.natAbs ≤ 2 ^ 53) :
    ofInt n = Float.ofBits ⟨fields n⟩ := by
  have digits := log2_le small
  have low := le_significand pos
  have high := significand_lt n.natAbs
  have mantissa : BitVec.ofNat 52 (significand n.natAbs) =
      BitVec.ofNat 52 (significand n.natAbs - 2 ^ 52) := by
    apply BitVec.eq_of_toNat_eq
    rw [BitVec.toNat_ofNat, BitVec.toNat_ofNat]
    omega
  have parts : (fields n).toNat = (sign n).toBitVec.toNat * 2 ^ 63 +
      (n.natAbs.log2 + 1023) * 2 ^ 52 + (significand n.natAbs - 2 ^ 52) := by
    rw [fields, mantissa]
    exact toNat_packComponents (sign n) (by omega) (by omega)
  rw [ofInt, nearest, ofMagnitude, nearestMagnitude_whole pos small]
  congr 1
  apply UInt64.toNat_inj.mp
  change _ = (fields n).toNat
  rw [parts, UInt64.toNat_ofNat', sign, perExponent, signBit]
  by_cases negative : n < 0
  · rw [decide_eq_true negative, if_pos negative, if_pos rfl]
    change _ = 1 * 2 ^ 63 + _ + _
    omega
  · rw [decide_eq_false negative, if_neg negative, if_neg Bool.false_ne_true]
    change _ = 0 * 2 ^ 63 + _ + _
    omega

theorem pack_whole {n : Int} (pos : 0 < n.natAbs) (small : n.natAbs ≤ 2 ^ 53) :
    UnpackedFloat.pack .binary64 (whole n) = fields n := by
  have digits := log2_le small
  have biased : ((n.natAbs.log2 : Int) - 52 + Format.binary64.exponentBias +
      Format.binary64.mantissaBitsWithoutImplicit).toNat = n.natAbs.log2 + 1023 := by
    change ((n.natAbs.log2 : Int) - 52 + 1023 + 52).toNat = _
    omega
  have fits : ¬2 ^ Format.binary64.exponentBits ≤ n.natAbs.log2 + 1023 + 1 := by
    change ¬2 ^ 11 ≤ _
    omega
  have normal : (significand n.natAbs).log2 + 1 = Format.binary64.mantissaBits := by
    rw [log2_significand pos]
    rfl
  rw [whole, dif_pos pos, UnpackedFloat.pack]
  simp only [biased, if_neg fits, if_pos normal]
  rfl

theorem unpack_fields {n : Int} (pos : 0 < n.natAbs) (small : n.natAbs ≤ 2 ^ 53) :
    UnpackedFloat.unpack .binary64 (fields n) = whole n := by
  have digits := log2_le small
  have low := le_significand pos
  have high := significand_lt n.natAbs
  have exponent : (BitVec.ofNat 11 (n.natAbs.log2 + 1023)).toNat = n.natAbs.log2 + 1023 :=
    Nat.mod_eq_of_lt (by omega)
  have not_ones : BitVec.ofNat 11 (n.natAbs.log2 + 1023) ≠ -1#11 := by
    intro ones
    have same := congrArg BitVec.toNat ones
    rw [exponent] at same
    change _ = 2047 at same
    omega
  have not_zero : BitVec.ofNat 11 (n.natAbs.log2 + 1023) ≠ 0#11 := by
    intro zero
    have same := congrArg BitVec.toNat zero
    rw [exponent] at same
    cases same
  have fraction : (BitVec.ofNat 52 (significand n.natAbs)).toNat = significand n.natAbs - 2 ^ 52 := by
    rw [BitVec.toNat_ofNat]
    omega
  have mantissa : (1#1 ++ BitVec.ofNat 52 (significand n.natAbs)).toNat = significand n.natAbs := by
    have implicit : (1#1).toNat <<< 52 = 2 ^ 52 := by decide
    rw [BitVec.toNat_append, ← Nat.shiftLeft_add_eq_or_of_lt (BitVec.isLt _), fraction, implicit]
    omega
  have unbiased : ((n.natAbs.log2 + 1023 : Nat) : Int) - (Format.binary64.exponentBias + (52 : Nat)) =
      n.natAbs.log2 - 52 := by
    change _ - (1023 + 52 : Int) = _
    omega
  rw [whole, dif_pos pos, UnpackedFloat.unpack]
  simp only [fields, unpackMantissa_packComponents, unpackExponent_packComponents,
    unpackSign_packComponents, Sign.ofBitVec_toBitVec, if_neg not_ones, if_neg not_zero, exponent,
    mantissa]
  rw [UnpackedFloat.finite.injEq]
  exact ⟨rfl, rfl, unbiased⟩

theorem toModel_ofInt {n : Int} (small : n.natAbs ≤ 2 ^ 53) :
    (ofInt n).toModel = Float.Model.pack (whole n) := by
  rcases Nat.eq_zero_or_pos n.natAbs with zero | pos
  · rw [Int.natAbs_eq_zero.mp zero]
    decide +kernel
  · rw [ofBits_fields pos small, ← unpack_fields pos small]
    rfl

theorem unpack_ofInt {n : Int} (small : n.natAbs ≤ 2 ^ 53) :
    (ofInt n).toModel.unpack = whole n := by
  rw [toModel_ofInt small]
  rcases Nat.eq_zero_or_pos n.natAbs with zero | pos
  · rw [Int.natAbs_eq_zero.mp zero]
    rfl
  · change UnpackedFloat.unpack .binary64 (UnpackedFloat.pack .binary64 (whole n)) = _
    rw [pack_whole pos small, unpack_fields pos small]

/-! ## Order -/

theorem compare_of_scaled {p q a b s c : Nat} (hs : 0 < s) (hc : 0 < c) (hp : p * s = a * c)
    (hq : q * s = b * c) : compare p q = compare a b := by
  have lt_iff : ∀ {p q a b : Nat}, p * s = a * c → q * s = b * c → (p < q ↔ a < b) := by
    intro p q a b hp hq
    rw [← Nat.mul_lt_mul_right hs, hp, hq, Nat.mul_lt_mul_right hc]
  rw [Nat.compare_eq_ite_lt, Nat.compare_eq_ite_lt]
  simp only [lt_iff hp hq, lt_iff hq hp]

/-- Fewer digits make a smaller integer, and as many digits are compared as they stand. -/
theorem compare_digits {a b : Nat} (ha : 0 < a) (hb : 0 < b) (small_a : a ≤ 2 ^ 53)
    (small_b : b ≤ 2 ^ 53) :
    (compare ((a.log2 : Int) - 52) (b.log2 - 52)).then (compare (significand a) (significand b)) =
      compare a b := by
  have lt_of_shorter : ∀ {a b : Nat}, 0 < b → a.log2 < b.log2 → a < b := by
    intro a b hb shorter
    exact Nat.lt_of_lt_of_le Nat.lt_log2_self ((Nat.pow_le_pow_right (by decide) shorter).trans
      (Nat.log2_self_le (Nat.ne_of_gt hb)))
  rcases Nat.lt_trichotomy a.log2 b.log2 with shorter | same | longer
  · have exponents : (a.log2 : Int) - 52 < b.log2 - 52 := by omega
    rw [Int.compare_eq_lt.mpr exponents, Ordering.lt_then,
      Nat.compare_eq_lt.mpr (lt_of_shorter hb shorter)]
  · have a_digits := significand_mul ha small_a
    rw [same] at a_digits
    rw [same, Int.compare_eq_eq.mpr rfl, Ordering.eq_then]
    exact compare_of_scaled (Nat.two_pow_pos _) (Nat.two_pow_pos 52) a_digits
      (significand_mul hb small_b)
  · have exponents : (b.log2 : Int) - 52 < a.log2 - 52 := by omega
    rw [Int.compare_eq_gt.mpr exponents, Ordering.gt_then,
      Nat.compare_eq_gt.mpr (lt_of_shorter ha longer)]

theorem compare_finite (s : Sign) {a b : Nat} {e f : Int} (ha : 0 < a) (hb : 0 < b) :
    (finite s a e ha).compare (finite s b f hb) =
      some (match s with
        | .positive => (compare e f).then (compare a b)
        | .negative => ((compare e f).then (compare a b)).swap) := by
  cases s <;> rfl

theorem whole_of_neg {n : Int} (h : n < 0) : whole n =
    finite .negative (significand n.natAbs) (n.natAbs.log2 - 52)
      (significand_pos (Int.natAbs_pos.mpr (Int.ne_of_lt h))) := by
  rw [whole, dif_pos (Int.natAbs_pos.mpr (Int.ne_of_lt h)), sign, if_pos h]

theorem whole_zero : whole 0 = zero .positive := rfl

theorem whole_of_pos {n : Int} (h : 0 < n) : whole n =
    finite .positive (significand n.natAbs) (n.natAbs.log2 - 52)
      (significand_pos (Int.natAbs_pos.mpr (Int.ne_of_gt h))) := by
  rw [whole, dif_pos (Int.natAbs_pos.mpr (Int.ne_of_gt h)), sign, if_neg (not_lt_of_gt h)]

theorem compare_whole {m n : Int} (small_m : m.natAbs ≤ 2 ^ 53) (small_n : n.natAbs ≤ 2 ^ 53) :
    (whole m).compare (whole n) = some (compare m n) := by
  rcases Int.lt_trichotomy m 0 with hm | rfl | hm <;> rcases Int.lt_trichotomy n 0 with hn | rfl | hn
  · have ha : 0 < m.natAbs := by omega
    have hb : 0 < n.natAbs := by omega
    have reversed : compare m n = (compare m.natAbs n.natAbs).swap := by
      rw [Nat.compare_swap, Nat.compare_eq_ite_lt, Int.compare_eq_ite_lt]
      simp only [show n.natAbs < m.natAbs ↔ m < n by omega,
        show m.natAbs < n.natAbs ↔ n < m by omega]
    rw [whole_of_neg hm, whole_of_neg hn, compare_finite, compare_digits ha hb small_m small_n,
      reversed]
  · rw [whole_of_neg hm, whole_zero, Int.compare_eq_lt.mpr hm]
    rfl
  · rw [whole_of_neg hm, whole_of_pos hn, Int.compare_eq_lt.mpr (by omega)]
    rfl
  · rw [whole_of_neg hn, whole_zero, Int.compare_eq_gt.mpr hn]
    rfl
  · rfl
  · rw [whole_of_pos hn, whole_zero, Int.compare_eq_lt.mpr hn]
    rfl
  · rw [whole_of_pos hm, whole_of_neg hn, Int.compare_eq_gt.mpr (by omega)]
    rfl
  · rw [whole_of_pos hm, whole_zero, Int.compare_eq_gt.mpr hm]
    rfl
  · have ha : 0 < m.natAbs := by omega
    have hb : 0 < n.natAbs := by omega
    have kept : compare m n = compare m.natAbs n.natAbs := by
      rw [Nat.compare_eq_ite_lt, Int.compare_eq_ite_lt]
      simp only [show m.natAbs < n.natAbs ↔ m < n by omega,
        show n.natAbs < m.natAbs ↔ n < m by omega]
    rw [whole_of_pos hm, whole_of_pos hn, compare_finite, compare_digits ha hb small_m small_n, kept]

theorem le_iff_compare {v w : Float} :
    v ≤ w ↔ (v.toModel.unpack.compare w.toModel.unpack).any (·.isLE) = true := by
  change decide _ = true ↔ _
  exact decide_eq_true_iff

/-- A NaN is not in order with anything. -/
theorem not_le_of_isNaN {v w : Float} (h : v.isNaN = true ∨ w.isNaN = true) : ¬v ≤ w := by
  have none : v.toModel.unpack.compare w.toModel.unpack = none := by
    rcases h with h | h
    · have nan : v.toModel.unpack = notANumber := isNaN_iff.mp h
      rw [nan]
      rfl
    · have nan : w.toModel.unpack = notANumber := isNaN_iff.mp h
      rw [nan]
      cases v.toModel.unpack <;> rfl
  rw [le_iff_compare, none]
  exact Bool.false_ne_true

/-! ## Sums -/

theorem shiftRight_exact (q s : Nat) :
    (⟨q * 2 ^ s, false, false⟩ : ExtendedMantissa) >>> s = ⟨q, false, false⟩ := by
  change s.repeat ExtendedMantissa.shiftRightOne ⟨q * 2 ^ s, false, false⟩ = _
  induction s generalizing q with
  | zero => rw [Nat.repeat, Nat.pow_zero, Nat.mul_one]
  | succ s ih =>
    have halves : q * 2 * 2 ^ s = q * 2 ^ (s + 1) := by rw [Nat.mul_assoc, ← Nat.pow_succ']
    rw [Nat.repeat, ← halves, ih, ExtendedMantissa.shiftRightOne]
    simp

/-- A number of 53 digits and some zeros behind them is to have the exponent of the digits. -/
theorem targetExponent_mul_two_pow {q s : Nat} {e : Int} (digits : q.log2 = 52)
    (normal : -1074 ≤ e + s) :
    Format.binary64.targetExponent (totalExponent (q * 2 ^ s) e) = e + s := by
  have pos := pos_of_log2 digits
  have total : totalExponent (q * 2 ^ s) e = 53 + s + e := by
    rw [totalExponent, log2_mul_two_pow pos, digits]
    omega
  rw [total]
  change max (53 + s + e - 53) (-1074) = e + s
  omega

/-- What has 53 digits, apart from zeros behind them, is not rounded. -/
theorem shiftToTargetExponent_exact {q s : Nat} {e : Int} (digits : q.log2 = 52)
    (normal : -1074 ≤ e + s) :
    shiftToTargetExponent .binary64 (q * 2 ^ s) e .exact = (⟨q, false, false⟩, e + s) := by
  have shift : (e + s - e).toNat = s := by omega
  rw [shiftToTargetExponent, targetExponent_mul_two_pow digits normal, shiftToExponent, shift]
  change (ExtendedMantissa.mk (q * 2 ^ s) false false >>> s, e + s) = _
  rw [shiftRight_exact]

theorem round_exact (sign : Sign) {q s : Nat} {e : Int} (digits : q.log2 = 52)
    (normal : -1074 ≤ e + s) (pos : 0 < q) :
    UnpackedFloat.round .binary64 sign (q * 2 ^ s) e = finite sign q (e + s) pos := by
  have keeps : (e - (e + s)).toNat = 0 := by omega
  have settled : shiftToTargetExponent .binary64 q (e + s) .exact = (⟨q, false, false⟩, e + s) := by
    have once := shiftToTargetExponent_exact (s := 0) (e := e + s) digits (by omega)
    rwa [Nat.pow_zero, Nat.mul_one, Int.ofNat_zero, Int.add_zero] at once
  rw [UnpackedFloat.round, targetExponent_mul_two_pow digits normal, decreaseExponent, keeps]
  have rounded : (ExtendedMantissa.mk q false false).roundedMantissa = q := rfl
  simp only [Nat.shiftLeft_zero, Int.ofNat_zero, Int.sub_zero, roundWithAccuracy,
    shiftToTargetExponent_exact digits normal, rounded, settled]
  exact dif_neg (Nat.ne_of_gt pos)

theorem round_whole (s : Sign) (pos : 0 < k) (small : k ≤ 2 ^ 53) :
    UnpackedFloat.round .binary64 s (k * 2 ^ 52) (-52) =
      finite s (significand k) (k.log2 - 52) (significand_pos pos) := by
  have exponent : (-52 : Int) + k.log2 = k.log2 - 52 := by omega
  rw [← significand_mul pos small,
    round_exact s (log2_significand pos) (by omega) (significand_pos pos), finite.injEq]
  exact ⟨rfl, rfl, exponent⟩

theorem normalize_whole {n : Int} (small : n.natAbs ≤ 2 ^ 53) :
    UnpackedFloat.normalize .binary64 (n * 2 ^ 52) (-52) .positive = whole n := by
  rw [UnpackedFloat.normalize]
  rcases Int.lt_trichotomy n 0 with hn | rfl | hn
  · have magnitude : (-(n * 2 ^ 52)).toNat = n.natAbs * 2 ^ 52 := by omega
    rw [Int.compare_eq_lt.mpr (by omega), magnitude, whole_of_neg hn]
    exact round_whole .negative (Int.natAbs_pos.mpr (Int.ne_of_lt hn)) small
  · rfl
  · have magnitude : (n * 2 ^ 52).toNat = n.natAbs * 2 ^ 52 := by omega
    rw [Int.compare_eq_gt.mpr (by omega), magnitude, whole_of_pos hn]
    exact round_whole .positive (Int.natAbs_pos.mpr (Int.ne_of_gt hn)) small

theorem add_finite (s s' : Sign) {a b : Nat} {e f : Int} (ha : 0 < a) (hb : 0 < b) :
    UnpackedFloat.add .binary64 (finite s a e ha) (finite s' b f hb) =
      UnpackedFloat.normalize .binary64
        (s.apply (a <<< (e - min e f).toNat : Nat) + s'.apply (b <<< (f - min e f).toNat : Nat))
        (min e f) .positive := rfl

theorem whole_one : whole 1 = finite .positive (2 ^ 52) (-52) (Nat.two_pow_pos 52) := by
  rw [whole_of_pos (by decide), finite.injEq]
  exact ⟨rfl, by decide +kernel, rfl⟩

/-- With the exponents made equal, one adds itself to the digits of an integer. -/
theorem add_whole_one_of_sign {n : Int} {s : Sign} (pos : 0 < n.natAbs) (small : n.natAbs ≤ 2 ^ 53)
    (small' : (n + 1).natAbs ≤ 2 ^ 53) (signed : s.apply n.natAbs = n) :
    UnpackedFloat.add .binary64
        (finite s (significand n.natAbs) (n.natAbs.log2 - 52) (significand_pos pos)) (whole 1) =
      whole (n + 1) := by
  have least : min ((n.natAbs.log2 : Int) - 52) (-52) = -52 := by omega
  have digits : significand n.natAbs <<< ((n.natAbs.log2 : Int) - 52 - -52).toNat =
      n.natAbs * 2 ^ 52 := by
    have shift : ((n.natAbs.log2 : Int) - 52 - -52).toNat = n.natAbs.log2 := by omega
    rw [shift, Nat.shiftLeft_eq, significand_mul pos small]
  have sum : s.apply (n.natAbs * 2 ^ 52 : Nat) +
      Sign.positive.apply (2 ^ 52 <<< ((-52 : Int) - -52).toNat : Nat) = (n + 1) * 2 ^ 52 := by
    have one : 2 ^ 52 <<< ((-52 : Int) - -52).toNat = 2 ^ 52 := by decide
    rw [one]
    cases s <;> simp only [Sign.apply] at signed ⊢ <;> omega
  rw [whole_one, add_finite, least, digits, sum, normalize_whole small']

theorem add_whole_one {n : Int} (small : n.natAbs ≤ 2 ^ 53) (small' : (n + 1).natAbs ≤ 2 ^ 53) :
    UnpackedFloat.add .binary64 (whole n) (whole 1) = whole (n + 1) := by
  rcases Int.lt_trichotomy n 0 with hn | rfl | hn
  · rw [whole_of_neg hn]
    have signed : Sign.negative.apply n.natAbs = n := by
      rw [Sign.apply]
      omega
    exact add_whole_one_of_sign (Int.natAbs_pos.mpr (Int.ne_of_lt hn)) small small' signed
  · rw [whole_one, whole_zero]
    exact whole_one.symm
  · rw [whole_of_pos hn]
    have signed : Sign.positive.apply n.natAbs = n := by
      rw [Sign.apply]
      omega
    exact add_whole_one_of_sign (Int.natAbs_pos.mpr (Int.ne_of_gt hn)) small small' signed

theorem ofInt_add_one {n : Int} (small : n.natAbs ≤ 2 ^ 53) (small' : (n + 1).natAbs ≤ 2 ^ 53) :
    ofInt n + 1 = ofInt (n + 1) := by
  have one : (1 : Float) = ofInt 1 := by decide +kernel
  have sum : ofInt n + ofInt 1 = Float.ofModel
      (.pack (.add .binary64 (ofInt n).toModel.unpack (ofInt 1).toModel.unpack)) := rfl
  rw [one, sum, unpack_ofInt small, unpack_ofInt (by decide), add_whole_one small small',
    ← toModel_ofInt small']

/-! ## Numbers equal to an integer -/

theorem beq_iff_compare {v w : Float} :
    (v == w) = true ↔ v.toModel.unpack.compare w.toModel.unpack = some .eq := by
  change (v.toModel.unpack.compare w.toModel.unpack == some .eq) = true ↔ _
  exact beq_iff_eq

/-- Comparisons do not see the sign of a zero. -/
theorem compare_zero (s s' : Sign) (u : UnpackedFloat) :
    (zero s).compare u = (zero s').compare u ∧ u.compare (zero s) = u.compare (zero s') := by
  cases s <;> cases s' <;> rcases u with s | _ | s | ⟨s, _⟩ <;> (try cases s) <;> exact ⟨rfl, rfl⟩

theorem ofInt_zero : ofInt 0 = 0 := by decide +kernel

theorem ofInt_beq_ofInt_iff {m n : Int} (small_m : m.natAbs ≤ 2 ^ 53) (small_n : n.natAbs ≤ 2 ^ 53) :
    (ofInt m == ofInt n) = true ↔ m = n := by
  rw [beq_iff_compare, unpack_ofInt small_m, unpack_ofInt small_n, compare_whole small_m small_n,
    Option.some.injEq, Int.compare_eq_eq]

/-- A number that equals an integer compares as the integer does. -/
theorem compare_of_beq_ofInt {v : Float} {n : Int} (small : n.natAbs ≤ 2 ^ 53)
    (equal : (v == ofInt n) = true) (u : UnpackedFloat) :
    v.toModel.unpack.compare u = (whole n).compare u ∧
      u.compare v.toModel.unpack = u.compare (whole n) := by
  rcases beq_iff.mp equal with ⟨zero_v, zero_n⟩ | ⟨rfl, -⟩
  · rw [← ofInt_zero] at zero_n
    obtain rfl : n = 0 := (ofInt_beq_ofInt_iff small (by decide)).mp zero_n
    rcases beq_zero_iff.mp zero_v with rfl | rfl
    · exact ⟨rfl, rfl⟩
    · exact compare_zero .negative .positive u
  · rw [unpack_ofInt small]
    exact ⟨rfl, rfl⟩

section
variable {v w : Float} {m n : Int} (small_m : m.natAbs ≤ 2 ^ 53) (small_n : n.natAbs ≤ 2 ^ 53)
  (equal_v : (v == ofInt m) = true) (equal_w : (w == ofInt n) = true)
include small_m small_n equal_v equal_w

theorem compare_unpack_of_beq_ofInt :
    v.toModel.unpack.compare w.toModel.unpack = some (compare m n) := by
  rw [(compare_of_beq_ofInt small_m equal_v _).1, (compare_of_beq_ofInt small_n equal_w _).2,
    compare_whole small_m small_n]

theorem le_iff_of_beq_ofInt : v ≤ w ↔ m ≤ n := by
  rw [le_iff_compare, compare_unpack_of_beq_ofInt small_m small_n equal_v equal_w, Option.any_some,
    Int.isLE_compare]

theorem beq_iff_of_beq_ofInt : (v == w) = true ↔ m = n := by
  rw [beq_iff_compare, compare_unpack_of_beq_ofInt small_m small_n equal_v equal_w,
    Option.some.injEq, Int.compare_eq_eq]

end

/-- Adding one to a number that equals an integer is exact. -/
theorem add_one_of_beq_ofInt {v : Float} {n : Int} (small : n.natAbs ≤ 2 ^ 53)
    (small' : (n + 1).natAbs ≤ 2 ^ 53) (equal : (v == ofInt n) = true) :
    (v + 1 == ofInt (n + 1)) = true := by
  have same : (ofInt (n + 1) == ofInt (n + 1)) = true := (ofInt_beq_ofInt_iff small' small').mpr rfl
  rcases beq_iff.mp equal with ⟨zero_v, zero_n⟩ | ⟨rfl, -⟩
  · rw [← ofInt_zero] at zero_n
    obtain rfl : n = 0 := (ofInt_beq_ofInt_iff small (by decide)).mp zero_n
    rcases beq_zero_iff.mp zero_v with rfl | rfl <;> decide +kernel
  · rwa [ofInt_add_one small small']

end ShapeScript.Binary64
