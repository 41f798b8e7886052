import Telemetry.Decimal

/-!
# Magnitudes of decimals

A decimal with zeros at the end of its digits is the same number as one without them, and reads back as the
same magnitude. The estimate of the decimal logarithm is exact far beyond the digits that are ever written.

## Main definitions

* `Decimal.scale`: a decimal with zeros behind its digits

## Main results

* `Decimal.round_scale`: zeros at the end do not change what a decimal reads back as
* `Decimal.length_toDigits`: the decimal logarithm counts the digits
* `Decimal.log2_digits_shortest_lt`: the digits that are written are within its range
-/

namespace Telemetry

-- Powers are those of whole numbers in the core library, whatever else is in scope.
attribute [local instance (2000)] instPowNat

/-! ## Rounding of equal ratios -/

theorem divEven_mul_mul {factor : Nat} (h : 0 < factor) (num den : Nat) :
    divEven (factor * num) (factor * den) = divEven num den := by
  have hcancel (a b : Nat) : 2 * (factor * a) < factor * b ↔ 2 * a < b := by
    rw [Nat.mul_left_comm]
    exact Nat.mul_lt_mul_left h
  have hcancel' (a b : Nat) : factor * b < 2 * (factor * a) ↔ b < 2 * a := by
    rw [Nat.mul_left_comm]
    exact Nat.mul_lt_mul_left h
  simp only [divEven, Nat.mul_div_mul_left _ _ h, Nat.mul_mod_mul_left, hcancel, hcancel']

theorem roundUnits_mul_mul {factor : Nat} (h : 0 < factor) (num den : Nat) :
    roundUnits (factor * num) (factor * den) = roundUnits num den := by
  simp only [roundUnits, Nat.mul_div_mul_left _ _ h, Nat.mul_assoc, divEven_mul_mul h]

namespace Decimal

/-! ## Zeros at the end -/

/-- **A decimal with zeros behind its digits**, which is the same number. -/
def scale (d : Decimal) (zeros : Nat) : Decimal :=
  ⟨d.digits * 10 ^ zeros, d.exponent - zeros⟩

theorem round_scale_one (d : Decimal) : (d.scale 1).round = d.round := by
  obtain ⟨digits, exponent⟩ := d
  simp only [round, scale, Nat.pow_one]
  generalize Binary64.unitsPerOne = units
  rcases Int.lt_or_le 0 exponent with hpos | hneg
  · -- A ten moves from the power to the digits.
    have hpow : 10 ^ exponent.toNat = 10 * 10 ^ (exponent - (1 : Nat)).toNat := by
      have hsucc : exponent.toNat = (exponent - (1 : Nat)).toNat + 1 := by omega
      rw [hsucc, Nat.pow_succ, Nat.mul_comm]
    have hnone : (-exponent).toNat = 0 := by omega
    have hnone' : (-(exponent - (1 : Nat))).toNat = 0 := by omega
    rw [hpow, hnone, hnone', Nat.mul_assoc digits]
  · -- Numerator and denominator gain a ten.
    have hpow : 10 ^ (-(exponent - (1 : Nat))).toNat = 10 * 10 ^ (-exponent).toNat := by
      have hsucc : (-(exponent - (1 : Nat))).toNat = (-exponent).toNat + 1 := by omega
      rw [hsucc, Nat.pow_succ, Nat.mul_comm]
    have hnone : exponent.toNat = 0 := by omega
    have hnone' : (exponent - (1 : Nat)).toNat = 0 := by omega
    rw [hpow, hnone, hnone', Nat.pow_zero, Nat.mul_one, Nat.mul_one, Nat.mul_comm digits,
      Nat.mul_assoc, roundUnits_mul_mul (by decide)]

/-- Zeros at the end do not change what a decimal reads back as. -/
theorem round_scale (d : Decimal) (zeros : Nat) : (d.scale zeros).round = d.round := by
  induction zeros with
  | zero => simp [scale]
  | succ zeros ih =>
    have hscale : d.scale (zeros + 1) = (d.scale zeros).scale 1 := by
      simp only [scale, Nat.pow_succ, Nat.pow_zero, Nat.one_mul, Nat.mul_assoc, mk.injEq, true_and]
      omega
    rw [hscale, round_scale_one, ih]

/-- Only zero has no digits, and it reads back as zero. -/
theorem round_zero (exponent : Int) : (⟨0, exponent⟩ : Decimal).round = 0 := by
  simp [round, roundUnits, divEven]

/-! ## The decimal logarithm -/

/-- The estimate of the decimal logarithm of a power of two is not too large. -/
theorem pow_estimate_le (exponent : Nat) : 10 ^ (exponent * 1233 / 4096) ≤ 2 ^ exponent := by
  -- `205 / 681` lies between `1233 / 4096` and the decimal logarithm of two.
  have hbase : 10 ^ 205 ≤ (2 ^ 227) ^ 3 := by decide
  refine (Nat.pow_le_pow_iff_left (n := 681) (by decide)).1 ?_
  calc (10 ^ (exponent * 1233 / 4096)) ^ 681
      = 10 ^ (exponent * 1233 / 4096 * 681) := (Nat.pow_mul ..).symm
    _ ≤ 10 ^ (205 * exponent) := Nat.pow_le_pow_right (by decide) (by omega)
    _ = (10 ^ 205) ^ exponent := Nat.pow_mul ..
    _ ≤ ((2 ^ 227) ^ 3) ^ exponent := Nat.pow_le_pow_left hbase exponent
    _ = 2 ^ (227 * (3 * exponent)) := by rw [← Nat.pow_mul, ← Nat.pow_mul]
    _ = 2 ^ (exponent * 681) := congrArg (2 ^ ·) (by omega)
    _ = (2 ^ exponent) ^ 681 := Nat.pow_mul ..

/-- It is short by less than two up to the next power of two, if the exponent is not too large. -/
theorem lt_pow_estimate {exponent : Nat} (h : exponent < 7000) :
    2 ^ (exponent + 1) ≤ 10 ^ (exponent * 1233 / 4096 + 2) := by
  have hbase : 2 ^ 93 ≤ 10 ^ 28 := by decide
  refine (Nat.pow_le_pow_iff_left (n := 93) (by decide)).1 ?_
  calc (2 ^ (exponent + 1)) ^ 93
      = (2 ^ 93) ^ (exponent + 1) := by rw [← Nat.pow_mul, ← Nat.pow_mul, Nat.mul_comm]
    _ ≤ (10 ^ 28) ^ (exponent + 1) := Nat.pow_le_pow_left hbase _
    _ = 10 ^ (28 * (exponent + 1)) := (Nat.pow_mul ..).symm
    _ ≤ 10 ^ ((exponent * 1233 / 4096 + 2) * 93) := Nat.pow_le_pow_right (by decide) (by omega)
    _ = (10 ^ (exponent * 1233 / 4096 + 2)) ^ 93 := Nat.pow_mul ..

/-- Numbers that are small enough lie between the powers of ten that their logarithm says. -/
theorem pow_log10_le_and_lt {n : Nat} (hpos : n ≠ 0) (hsmall : n.log2 < 7000) :
    10 ^ log10 n ≤ n ∧ n < 10 ^ (log10 n + 1) := by
  have hlow : 10 ^ (n.log2 * 1233 / 4096) ≤ n :=
    Nat.le_trans (pow_estimate_le _) (Nat.log2_self_le hpos)
  have hhigh : n < 10 ^ (n.log2 * 1233 / 4096 + 2) :=
    Nat.lt_of_lt_of_le Nat.lt_log2_self (lt_pow_estimate hsmall)
  unfold log10
  dsimp only
  split
  · next h => exact ⟨h, hhigh⟩
  · next h => exact ⟨hlow, Nat.lt_of_not_le h⟩

theorem length_toDigits {n : Nat} (hpos : n ≠ 0) (hsmall : n.log2 < 7000) :
    (Nat.toDigits 10 n).length = log10 n + 1 := by
  obtain ⟨hlow, hhigh⟩ := pow_log10_le_and_lt hpos hsmall
  refine Nat.le_antisymm ((Nat.length_toDigits_le_iff (by decide) (Nat.succ_pos _)).2 hhigh) ?_
  rcases Nat.eq_zero_or_pos (log10 n) with hzero | hlogpos
  · rw [hzero]
    exact Nat.length_toDigits_pos
  · -- With fewer digits the number would be below the power of ten that it is not below.
    apply Nat.lt_of_not_le
    rw [Nat.length_toDigits_le_iff (by decide) hlogpos]
    exact Nat.not_lt.2 hlow

/-! ## The digits that are written -/

/-- The grid of 17 digits at most is no finer than `10 ^ -340`. -/
theorem toNat_neg_exponent_le (units : Nat) {length : Nat} (h : length ≤ 17) :
    (-(leadingExponent units - length + 1)).toNat ≤ 340 := by
  unfold leadingExponent
  omega

/-- Neighbours on a grid are no larger than the magnitude in units of the grid. -/
theorem digits_neighbours_le (units length : Nat) {d : Decimal}
    (hd : d = (neighbours units length).1 ∨ d = (neighbours units length).2) :
    d.digits ≤ units * 10 ^ (-(leadingExponent units - length + 1)).toNat + 1 := by
  have hdiv (den : Nat) : units * 10 ^ (-(leadingExponent units - length + 1)).toNat / den ≤
      units * 10 ^ (-(leadingExponent units - length + 1)).toNat :=
    Nat.div_le_self _ _
  unfold neighbours at hd
  dsimp only at hd
  split at hd
  · rcases hd with rfl | rfl
    · exact Nat.le_succ_of_le (hdiv _)
    · exact Nat.succ_le_succ (hdiv _)
  · rcases hd with rfl | rfl
    · exact Nat.succ_le_succ (hdiv _)
    · exact Nat.le_succ_of_le (hdiv _)

theorem log2_le_of_le {n units tens : Nat} (h : n ≤ units * 10 ^ tens + 1) :
    n.log2 ≤ units.log2 + 1 + 4 * tens := by
  have htens : 10 ^ tens ≤ 2 ^ (4 * tens) := by
    rw [Nat.pow_mul]
    exact Nat.pow_le_pow_left (by decide) tens
  have hunits : units + 1 ≤ 2 ^ (units.log2 + 1) := Nat.lt_log2_self
  have hone : 1 ≤ 2 ^ (4 * tens) := Nat.one_le_two_pow
  have hn : n < 2 ^ (units.log2 + 1 + 4 * tens + 1) := by
    calc n ≤ units * 2 ^ (4 * tens) + 2 ^ (4 * tens) :=
          Nat.le_trans h (Nat.add_le_add (Nat.mul_le_mul_left _ htens) hone)
      _ = (units + 1) * 2 ^ (4 * tens) := (Nat.succ_mul ..).symm
      _ ≤ 2 ^ (units.log2 + 1) * 2 ^ (4 * tens) := Nat.mul_le_mul_right _ hunits
      _ = 2 ^ (units.log2 + 1 + 4 * tens) := (Nat.pow_add ..).symm
      _ < 2 ^ (units.log2 + 1 + 4 * tens + 1) := Nat.pow_lt_pow_right (by decide) (Nat.lt_succ_self _)
  rcases Nat.eq_zero_or_pos n with rfl | hpos
  · simp
  · exact Nat.le_of_lt_succ ((Nat.log2_lt (Nat.ne_of_gt hpos)).2 hn)

/-- **The digits that are written** are within the range in which their logarithm is exact. -/
theorem log2_digits_shortest_lt {units : Nat} (h : Representable units) :
    (shortest units).digits.log2 < 7000 := by
  have hunits : units.log2 < 2098 := h.1
  unfold shortest
  cases hfound : (List.range' 1 17).findSome? (candidate? units) with
  | some d =>
    obtain ⟨length, hlength, hd⟩ := List.exists_of_findSome?_eq_some hfound
    have hle : length ≤ 17 := by
      have := List.mem_range'_1.1 hlength
      omega
    have hmem := List.mem_of_find?_eq_some hd
    simp only [List.mem_cons, List.not_mem_nil, or_false] at hmem
    have hlog := log2_le_of_le (digits_neighbours_le units length hmem)
    have htens := toNat_neg_exponent_le units hle
    show d.digits.log2 < 7000
    omega
  | none =>
    have hfull : units * 5 ^ Binary64.unitExponent ≤ units * 10 ^ Binary64.unitExponent + 1 :=
      Nat.le_succ_of_le (Nat.mul_le_mul_left _ (Nat.pow_le_pow_left (by decide) _))
    have hlog := log2_le_of_le hfull
    have hplaces : Binary64.unitExponent = 1074 := rfl
    show (units * 5 ^ Binary64.unitExponent).log2 < 7000
    omega

end Decimal

end Telemetry
