import ShapeScript.Number.Shortest
import ShapeScript.Proofs.Number.Decimal

/-!
# Shortest numerals

No numeral with as many digits lies between two neighbours (`Neighbours.Enclose.outside`), so if any
numeral of that length reads back, one of the two does, and the nearer one that does is the best of
them (`best_of_withDigits?`). Seventeen digits are always enough (`exists_withDigits?_mostDigits`).
Hence the numeral that the search finds has the fewest digits of all that read back, and is the nearest
of those (`best_numeral`).
-/

namespace ShapeScript

open Binary64

namespace Decimal

variable {d : Decimal} {n : Nat}

/-- How many digits a numeral has. -/
def size (d : Decimal) : Nat := (Nat.toDigits 10 d.digits).length

theorem size_le_iff (pos : 0 < n) : d.size ≤ n ↔ d.digits < 10 ^ n :=
  Nat.length_toDigits_le_iff (by decide) pos

theorem size_pos (d : Decimal) : 0 < d.size := Nat.length_toDigits_pos

end Decimal

namespace Shortest

/-! ## Neighbours -/

/-- `x` is between the neighbours, which follow each other among the numerals with `n` digits. -/
structure Neighbours.Enclose (near : Neighbours) (x : ℚ) (n low : Nat) (e : Int) : Prop where
  lower : near.lower.value = low * 10 ^ e
  upper : near.upper.value = (low + 1) * 10 ^ e
  le : low * 10 ^ e ≤ x
  lt : x < (low + 1) * 10 ^ e
  full : 10 ^ (n - 1) ≤ low
  lower_short : near.lower.digits < 10 ^ n
  upper_short : near.upper.digits < 10 ^ n
  middle : near.belowMidpoint = true ↔ 2 * x < (2 * low + 1) * 10 ^ e

/-- A whole number of steps against a fraction, multiplied out. -/
theorem div_lt_steps_iff {a b steps places : Nat} (pos : 0 < b) (reach : Nat) :
    (a / b : ℚ) < steps * 10 ^ ((places : Int) - reach) ↔
      a * 10 ^ reach < steps * 10 ^ places * b := by
  have ten : (0 : ℚ) < (10 ^ reach : Nat) := by positivity
  have power : (steps * 10 ^ ((places : Int) - reach) : ℚ) =
      (steps * 10 ^ places : Nat) / (10 ^ reach : Nat) := by
    rw [zpow_sub₀ (by norm_num), zpow_natCast, zpow_natCast]
    push_cast
    ring
  rw [power, div_lt_div_iff₀ (Nat.cast_pos.mpr pos) ten]
  exact_mod_cast Iff.rfl

/-- A number of `size` digits, cut to its first `n` ones. -/
theorem first_digits {scaled n : Nat} (pos : 0 < n)
    (long : n < (Nat.toDigits 10 scaled).length) :
    10 ^ (n - 1) ≤ scaled / 10 ^ ((Nat.toDigits 10 scaled).length - n) ∧
      scaled / 10 ^ ((Nat.toDigits 10 scaled).length - n) < 10 ^ n := by
  have upper := (Nat.length_toDigits_le_iff (b := 10) (n := scaled) (by decide)
    (Nat.zero_lt_of_lt long)).mp (Nat.le_refl _)
  have lower := (Nat.length_toDigits_le_iff (b := 10) (n := scaled)
    (k := (Nat.toDigits 10 scaled).length - 1) (by decide) (by omega)).not.mp (by omega)
  generalize (Nat.toDigits 10 scaled).length = size at *
  refine ⟨?_, ?_⟩
  · rw [Nat.le_div_iff_mul_le (Nat.pow_pos (by decide)), ← Nat.pow_add]
    have sum : n - 1 + (size - n) = size - 1 := by omega
    rw [sum]
    exact Nat.le_of_not_lt lower
  · rw [Nat.div_lt_iff_lt_mul (Nat.pow_pos (by decide)), ← Nat.pow_add]
    have sum : n + (size - n) = size := by omega
    rwa [sum]

/-- There are more digits than are ever asked for. -/
theorem mostDigits_lt {units : Nat} (pos : 0 < units) :
    mostDigits < (Nat.toDigits 10 (units * Nat.pow 10 Decimal.reach / unitsPerOne)).length := by
  have least : 10 ^ mostDigits * unitsPerOne ≤ Nat.pow 10 Decimal.reach := by decide +kernel
  have unit_pos := unitsPerOne_pos
  generalize Nat.pow 10 Decimal.reach = scale, unitsPerOne = unit at *
  refine Nat.lt_of_not_le fun short => ?_
  rw [Nat.length_toDigits_le_iff (by decide) (by decide)] at short
  refine Nat.not_le_of_lt short ((Nat.le_div_iff_mul_le unit_pos).mpr ?_)
  exact Nat.le_trans least (Nat.le_mul_of_pos_left _ pos)

/-- Of `10 ^ n` only the one stays, so what is not above it becomes short. -/
theorem digits_reduce_lt {digits n : Nat} (pos : 0 < digits) (one : 0 < n) (le : digits ≤ 10 ^ n)
    (exponent : Int) : (Decimal.reduce digits exponent).digits < 10 ^ n := by
  have shorter := Decimal.digits_reduce_le digits exponent
  have last := Decimal.digits_reduce_mod pos exponent
  refine Nat.lt_of_le_of_ne (Nat.le_trans shorter le) fun power => last ?_
  rw [power]
  exact Nat.mod_eq_zero_of_dvd (dvd_pow_self 10 (Nat.ne_of_gt one))

/-- The two neighbours enclose the value. -/
theorem exists_enclose {m n : Nat} (pos : 0 < m) (one : 0 < n) (le : n ≤ mostDigits) :
    ∃ low e, (neighbours (unitsOfMagnitude m) n).Enclose (exactValue m) n low e := by
  have units_pos : 0 < unitsOfMagnitude m := Nat.zero_lt_of_lt (strictMono_unitsOfMagnitude pos)
  obtain ⟨full, short⟩ := first_digits one (Nat.lt_of_le_of_lt le (mostDigits_lt units_pos))
  have unit_pos := unitsPerOne_pos
  have power : ∀ k, Nat.pow 10 k = 10 ^ k := fun k => Nat.pow_eq
  rw [exactValue, neighbours]
  simp only [power] at *
  generalize unitsOfMagnitude m = units, Decimal.reach = reach, unitsPerOne = unit at *
  generalize (Nat.toDigits 10 (units * 10 ^ reach / unit)).length - n = places at *
  generalize cut : units * 10 ^ reach / unit / 10 ^ places = low at *
  have step_pos : 0 < unit * 10 ^ places := Nat.mul_pos unit_pos (Nat.pow_pos (by decide))
  rw [Nat.div_div_eq_div_mul] at cut
  have below : low * 10 ^ places * unit ≤ units * 10 ^ reach := by
    rw [Nat.mul_assoc, Nat.mul_comm _ unit]
    exact (Nat.le_div_iff_mul_le step_pos).mp (Nat.le_of_eq cut.symm)
  have above : units * 10 ^ reach < (low + 1) * 10 ^ places * unit := by
    rw [Nat.mul_assoc, Nat.mul_comm _ unit]
    exact (Nat.div_lt_iff_lt_mul step_pos).mp (cut ▸ Nat.lt_succ_self _)
  exact ⟨low, places - reach, {
    lower := Decimal.value_reduce ..
    upper := by rw [Decimal.value_reduce, Nat.cast_add_one]
    le := not_lt.mp fun less => Nat.not_lt_of_le below ((div_lt_steps_iff unit_pos reach).mp less)
    lt := by exact_mod_cast (div_lt_steps_iff unit_pos reach).mpr above
    full := full
    lower_short := Nat.lt_of_le_of_lt (Decimal.digits_reduce_le ..) short
    upper_short := digits_reduce_lt (Nat.succ_pos _) one short _
    middle := by
      have twice : ((2 * units : Nat) / unit : ℚ) <
          (2 * low + 1 : Nat) * 10 ^ ((places : Int) - reach) ↔ _ := div_lt_steps_iff unit_pos reach
      rw [decide_eq_true_eq, ← twice, ← mul_div_assoc]
      push_cast
      exact Iff.rfl }⟩

variable {m n low : Nat} {e : Int} {near : Neighbours} {x : ℚ} {d d' : Decimal}

namespace Neighbours.Enclose

theorem lower_le (h : near.Enclose x n low e) : near.lower.value ≤ x := h.lower ▸ h.le

theorem lt_upper (h : near.Enclose x n low e) : x < near.upper.value := h.upper ▸ h.lt

/-- No numeral of that length lies between the neighbours. One with a larger exponent is a whole
number of steps, and one with a smaller exponent has not enough digits to reach even the lower
neighbour. -/
theorem outside (h : near.Enclose x n low e) (one : 0 < n) (short : d.digits < 10 ^ n) :
    d.value ≤ near.lower.value ∨ near.upper.value ≤ d.value := by
  have step : (0 : ℚ) < 10 ^ e := by positivity
  rw [h.lower, h.upper, Decimal.value]
  rcases lt_or_ge d.exponent e with finer | coarser
  · have digits : (d.digits : ℚ) ≤ 10 * low := by
      have power : 10 ^ n = 10 * 10 ^ (n - 1) := by
        rw [← Nat.pow_succ', Nat.succ_eq_add_one, Nat.sub_add_cancel one]
      exact_mod_cast Nat.le_of_lt (Nat.lt_of_lt_of_le short (power ▸ Nat.mul_le_mul_left 10 h.full))
    refine .inl ?_
    calc (d.digits * 10 ^ d.exponent : ℚ)
        ≤ 10 * low * 10 ^ (e - 1) := mul_le_mul digits
          (zpow_le_zpow_right₀ (by norm_num) (Int.le_sub_one_of_lt finer)) (by positivity)
          (by positivity)
      _ = low * 10 ^ e := by
        rw [zpow_sub_one₀ (by norm_num)]
        field_simp
  · obtain ⟨places, exponent⟩ := Int.exists_add_of_le coarser
    have whole : (d.digits * 10 ^ d.exponent : ℚ) = (d.digits * 10 ^ places : Nat) * 10 ^ e := by
      rw [exponent, zpow_add₀ (by norm_num), zpow_natCast]
      push_cast
      ring
    rw [whole]
    refine (Nat.lt_or_ge low (d.digits * 10 ^ places)).symm.imp ?_ ?_ <;> intro le
    · exact mul_le_mul_of_nonneg_right (Nat.cast_le.mpr le) step.le
    · exact mul_le_mul_of_nonneg_right (by exact_mod_cast le) step.le

end Neighbours.Enclose

/-! ## The search -/

/-- `d` reads back as `m`, and of the numerals up to that length that do, it is the nearest one. Of
two equally near ones it is the upper. -/
structure Best (m n : Nat) (d : Decimal) : Prop where
  reads : d.nearestMagnitude = m
  short : d.digits < 10 ^ n
  closest : ∀ d' : Decimal, d'.digits < 10 ^ n → d'.nearestMagnitude = m →
    |exactValue m - d.value| ≤ |exactValue m - d'.value|
  upper : ∀ d' : Decimal, d'.digits < 10 ^ n → d'.nearestMagnitude = m →
    |exactValue m - d'.value| = |exactValue m - d.value| → d'.value ≤ d.value

/-- A numeral is read like the one that is farther off on the same side, if that one is read as the
value. -/
theorem reads_of_ge (inside : m ≤ infinityMagnitude) (reads : d'.nearestMagnitude = m)
    (below : d'.value ≤ d.value) (le : d.value ≤ exactValue m) : d.nearestMagnitude = m :=
  Nat.le_antisymm (Decimal.nearestMagnitude_le inside le)
    (reads ▸ Decimal.nearestMagnitude_mono below)

theorem reads_of_le (inside : m ≤ infinityMagnitude) (reads : d'.nearestMagnitude = m)
    (above : d.value ≤ d'.value) (le : exactValue m ≤ d.value) : d.nearestMagnitude = m :=
  Nat.le_antisymm (reads ▸ Decimal.nearestMagnitude_mono above)
    (Decimal.le_nearestMagnitude inside le)

/-- Both neighbours are tried, the nearer one first. -/
theorem withDigits?_eq_some (grid : neighbours (unitsOfMagnitude m) n = near)
    (found : withDigits? m n = some d) :
    (d = near.lower ∧ d.nearestMagnitude = m ∧
        (near.belowMidpoint = true ∨ near.upper.nearestMagnitude ≠ m)) ∨
      (d = near.upper ∧ d.nearestMagnitude = m ∧
        (near.belowMidpoint ≠ true ∨ near.lower.nearestMagnitude ≠ m)) := by
  simp only [withDigits?, grid, Bool.and_eq_true, Bool.or_eq_true, Bool.not_eq_true', beq_iff_eq,
    beq_eq_false_iff_ne] at found
  split at found
  next lower =>
    obtain rfl := Option.some.inj found
    exact .inl ⟨rfl, lower⟩
  next notLower =>
    split at found
    next upper =>
      obtain rfl := Option.some.inj found
      refine .inr ⟨rfl, upper, Decidable.or_iff_not_imp_left.mpr fun below reads => ?_⟩
      exact notLower ⟨reads, .inl (not_not.mp below)⟩
    next => exact nomatch found

/-- If one of the neighbours reads back, the search finds one. -/
theorem exists_withDigits? (grid : neighbours (unitsOfMagnitude m) n = near)
    (reads : near.lower.nearestMagnitude = m ∨ near.upper.nearestMagnitude = m) :
    ∃ d, withDigits? m n = some d := by
  simp only [withDigits?, grid, Bool.and_eq_true, Bool.or_eq_true, Bool.not_eq_true', beq_iff_eq,
    beq_eq_false_iff_ne]
  split
  next => exact ⟨_, rfl⟩
  next notLower =>
    split
    next => exact ⟨_, rfl⟩
    next notUpper =>
      exact absurd ⟨reads.resolve_right notUpper, .inr notUpper⟩ notLower

/-- The lower neighbour against what is not above it or is farther off on the other side. -/
theorem nearer_of_below {a b : ℚ} (le : a ≤ x) (other : b ≤ a ∨ 2 * x < a + b) :
    |x - a| ≤ |x - b| ∧ (|x - b| = |x - a| → b ≤ a) := by
  rw [abs_of_nonneg (sub_nonneg.mpr le)]
  rcases other with below | beyond
  · exact ⟨by linarith [le_abs_self (x - b)], fun _ => below⟩
  · have far : x - a < |x - b| := by linarith [neg_abs_le (x - b)]
    exact ⟨far.le, fun same => absurd same far.ne'⟩

/-- The upper neighbour against what is not below it or is not nearer on the other side. -/
theorem nearer_of_above {a b : ℚ} (le : x ≤ a) (other : a ≤ b ∨ a + b ≤ 2 * x) :
    |x - a| ≤ |x - b| ∧ (|x - b| = |x - a| → b ≤ a) := by
  rw [abs_of_nonpos (sub_nonpos.mpr le)]
  rcases other with above | before
  · rw [abs_of_nonpos (by linarith)]
    exact ⟨by linarith, fun same => by linarith⟩
  · exact ⟨by linarith [le_abs_self (x - b)], fun _ => by linarith⟩

/-- What is found is the best numeral of its length. -/
theorem best_of_withDigits? (pos : 0 < m) (inside : m ≤ infinityMagnitude) (one : 0 < n)
    (le : n ≤ mostDigits) (found : withDigits? m n = some d) : Best m n d := by
  obtain ⟨low, e, enclose⟩ := exists_enclose pos one le
  generalize grid : neighbours (unitsOfMagnitude m) n = near at enclose
  have middle : near.belowMidpoint = true ↔ 2 * exactValue m < near.lower.value + near.upper.value := by
    rw [enclose.middle, enclose.lower, enclose.upper]
    ring_nf
  rcases withDigits?_eq_some grid found with ⟨rfl, reads, way⟩ | ⟨rfl, reads, way⟩
  · have other (d' : Decimal) (short : d'.digits < 10 ^ n) (reads' : d'.nearestMagnitude = m) :
        d'.value ≤ near.lower.value ∨ 2 * exactValue m < near.lower.value + d'.value := by
      refine (enclose.outside one short).imp_right fun above => ?_
      have upper_reads := reads_of_le inside reads' above enclose.lt_upper.le
      linarith [middle.mp (way.resolve_right (not_not.mpr upper_reads))]
    exact {
      reads := reads
      short := enclose.lower_short
      closest d' short' reads' := (nearer_of_below enclose.lower_le (other d' short' reads')).1
      upper d' short' reads' := (nearer_of_below enclose.lower_le (other d' short' reads')).2 }
  · have other (d' : Decimal) (short : d'.digits < 10 ^ n) (reads' : d'.nearestMagnitude = m) :
        near.upper.value ≤ d'.value ∨ near.upper.value + d'.value ≤ 2 * exactValue m := by
      refine (enclose.outside one short).symm.imp_right fun below => ?_
      have lower_reads := reads_of_ge inside reads' below enclose.lower_le
      have beyond := mt middle.mpr (way.resolve_right (not_not.mpr lower_reads))
      linarith [not_lt.mp beyond]
    exact {
      reads := reads
      short := enclose.upper_short
      closest d' short' reads' := (nearer_of_above enclose.lt_upper.le (other d' short' reads')).1
      upper d' short' reads' := (nearer_of_above enclose.lt_upper.le (other d' short' reads')).2 }

/-- If any numeral of that length reads back, one is found. -/
theorem exists_withDigits?_of_reads (pos : 0 < m) (inside : m ≤ infinityMagnitude) (one : 0 < n)
    (le : n ≤ mostDigits) (short : d'.digits < 10 ^ n) (reads : d'.nearestMagnitude = m) :
    ∃ d, withDigits? m n = some d := by
  obtain ⟨low, e, enclose⟩ := exists_enclose pos one le
  exact exists_withDigits? rfl ((enclose.outside one short).imp
    (fun below => reads_of_ge inside reads below enclose.lower_le)
    fun above => reads_of_le inside reads above enclose.lt_upper.le)

/-! ## Seventeen digits -/

/-- Seventeen digits are enough: one of the neighbours is off by at most half a step, and a step is
at most one part in `10 ^ 16`. -/
theorem exists_withDigits?_mostDigits (pos : 0 < m) (inside : m ≤ infinityMagnitude) :
    ∃ d, withDigits? m mostDigits = some d := by
  obtain ⟨low, e, enclose⟩ := exists_enclose pos (by decide) (Nat.le_refl mostDigits)
  have unit_pos : (0 : ℚ) < unitsPerOne := Nat.cast_pos.mpr unitsPerOne_pos
  have step : (0 : ℚ) < 10 ^ e := by positivity
  have fine : 10 ^ 16 * 10 ^ e ≤ exactValue m := by
    refine le_trans (mul_le_mul_of_nonneg_right ?_ step.le) enclose.le
    exact_mod_cast enclose.full
  have close : ∀ d : Decimal, 2 * |d.value - exactValue m| ≤ 10 ^ e → d.nearestMagnitude = m := by
    intro d half
    refine (Decimal.nearest_nearestMagnitude d).unique (nearest_of_close inside ?_)
    rw [← exactValue_mul, ← sub_mul, abs_mul, abs_of_pos unit_pos, ← mul_assoc]
    exact mul_lt_mul_of_pos_right (by linarith) unit_pos
  refine exists_withDigits? rfl ?_
  rcases lt_or_ge (2 * exactValue m) ((2 * low + 1) * 10 ^ e) with below | above
  · refine .inl (close _ ?_)
    rw [abs_sub_comm, abs_of_nonneg (sub_nonneg.mpr enclose.lower_le), enclose.lower]
    linarith
  · refine .inr (close _ ?_)
    rw [abs_of_nonneg (sub_nonneg.mpr enclose.lt_upper.le), enclose.upper]
    linarith

/-! ## The shortest numeral -/

/-- The search goes up one digit at a time, and ends. -/
theorem exists_numeral (pos : 0 < m) (inside : m ≤ infinityMagnitude) :
    ∃ n, 0 < n ∧ n ≤ mostDigits ∧ withDigits? m n = some (numeral m) ∧
      ∀ k, 0 < k → k < n → withDigits? m k = none := by
  obtain ⟨d, last⟩ := exists_withDigits?_mostDigits pos inside
  have hit : ((List.range' 1 mostDigits).findSome? (withDigits? m)).isSome := by
    refine List.findSome?_isSome_iff.mpr ⟨mostDigits, ?_, Option.isSome_of_mem last⟩
    exact List.mem_range'_1.mpr ⟨by decide, by decide⟩
  obtain ⟨found, first⟩ := Option.isSome_iff_exists.mp hit
  rw [numeral, first, Option.getD_some]
  obtain ⟨before, n, after, split, here, misses⟩ := List.findSome?_eq_some_iff.mp first
  obtain ⟨k, within, rfl, rest⟩ := List.range'_eq_append_iff.mp split
  obtain ⟨rfl, more, -⟩ := List.range'_eq_cons_iff.mp rest.symm
  refine ⟨_, by omega, by omega, here, fun j positive less => misses j ?_⟩
  exact List.mem_range'_1.mpr ⟨positive, by omega⟩

/-- The numeral reads back, none that reads back has fewer digits, and of those with as many digits
it is the best. -/
theorem best_numeral (pos : 0 < m) (inside : m ≤ infinityMagnitude) :
    Best m (numeral m).size (numeral m) ∧
      ∀ d : Decimal, d.nearestMagnitude = m → (numeral m).size ≤ d.size := by
  obtain ⟨n, one, le, found, misses⟩ := exists_numeral pos inside
  have best := best_of_withDigits? pos inside one le found
  have fewest : ∀ d : Decimal, d.nearestMagnitude = m → n ≤ d.size := by
    intro d reads
    refine Nat.le_of_not_lt fun less => ?_
    obtain ⟨d', hit⟩ := exists_withDigits?_of_reads pos inside d.size_pos (by omega)
      ((Decimal.size_le_iff d.size_pos).mp (Nat.le_refl _)) reads
    exact nomatch hit.symm.trans (misses _ d.size_pos less)
  have size : (numeral m).size = n :=
    Nat.le_antisymm ((Decimal.size_le_iff one).mpr best.short) (fewest _ best.reads)
  exact ⟨size ▸ best, size ▸ fewest⟩

/-- The least positive number is about `4.94 * 10 ^ -324`, and one digit tells it from the others. -/
example : numeral 1 = ⟨5, -324⟩ := by decide +kernel

end Shortest
end ShapeScript
