import Telemetry.Number

/-!
# Whole numbers as binary64 numbers

Whole numbers up to `2 ^ 53` are binary64 numbers, and are added exactly as long as the sum is in that range.
Larger ones are rounded. A whole number is too large from the point halfway between the greatest finite number,
`2 ^ 1024 - 2 ^ 971`, and `2 ^ 1024`: the half is rounded up, to the even neighbour.

## Main definitions

* `Number.InRange`: the numbers that are not too large

## Main results

* `Binary64.add_ofDecimal`: whole numbers up to `2 ^ 53` are added exactly
* `roundUnits_lt_iff`: which magnitudes are rounded to less than a power of two
* `Number.isSome_toBinary64?_iff`: exactly the numbers in range can be converted
-/

namespace Telemetry

-- Powers are those of whole numbers in the core library, whatever else is in scope.
attribute [local instance (2000)] instPowNat

/-! ## Whole numbers that are exact -/

/-- Up to `2 ^ 53` times a power of two there are no digits that could be dropped. -/
theorem representable_mul_two_pow {n exponent : Nat} (hn : n ≤ 2 ^ (53 : Nat)) (hexponent : exponent < 2045) :
    Representable (n * 2 ^ exponent) := by
  have hpow : 0 < 2 ^ exponent := Nat.two_pow_pos exponent
  -- Only `2 ^ 53` itself has more than 53 digits, and all but the first of them are zeros.
  rcases Nat.lt_or_eq_of_le hn with hlt | rfl
  · rcases Nat.eq_zero_or_pos n with rfl | hpos
    · rw [Nat.zero_mul]
      exact ⟨by decide, Nat.dvd_zero _⟩
    · have hunits : n * 2 ^ exponent < 2 ^ (53 + exponent) := by
        rw [Nat.pow_add]
        exact Nat.mul_lt_mul_of_pos_right hlt hpow
      have hlog : (n * 2 ^ exponent).log2 < 53 + exponent :=
        (Nat.log2_lt (Nat.ne_of_gt (Nat.mul_pos hpos hpow))).2 hunits
      refine ⟨by omega, Nat.dvd_trans (Nat.pow_dvd_pow 2 ?_) (Nat.dvd_mul_left _ _)⟩
      omega
  · rw [← Nat.pow_add]
    refine ⟨?_, Nat.pow_dvd_pow 2 ?_⟩
    · rw [Nat.log2_two_pow]
      omega
    · rw [Nat.log2_two_pow]
      omega

namespace Binary64

theorem representable_whole {n : Nat} (h : n ≤ 2 ^ (53 : Nat)) : Representable (n * unitsPerOne) :=
  representable_mul_two_pow h (by decide)

/-- Whole numbers up to `2 ^ 53` are what they are. -/
theorem ofDecimal_whole {n : Nat} (h : n ≤ 2 ^ (53 : Nat)) :
    ofDecimal false n 0 = .finite false (n * unitsPerOne) (representable_whole h) := by
  have hround := roundUnits_of_representable (representable_whole h)
  simp only [ofDecimal, Int.neg_zero, Int.toNat_zero, Nat.pow_zero, Nat.mul_one, ofRatio, hround]
  rw [dif_pos (representable_whole h)]

theorem ofDecimal_zero : ofDecimal false 0 0 = zero false := by
  rw [ofDecimal_whole (Nat.zero_le _)]
  simp only [Nat.zero_mul, zero]

/-- **Whole numbers are added exactly** if their sum is at most `2 ^ 53`. -/
theorem add_ofDecimal {m n : Nat} (h : m + n ≤ 2 ^ (53 : Nat)) :
    add (ofDecimal false m 0) (ofDecimal false n 0) = ofDecimal false (m + n) 0 := by
  rw [ofDecimal_whole (Nat.le_trans (Nat.le_add_right m n) h),
    ofDecimal_whole (Nat.le_trans (Nat.le_add_left n m) h), ofDecimal_whole h]
  have hunits : (m * unitsPerOne : Nat) + (n * unitsPerOne : Nat) = (((m + n) * unitsPerOne : Nat) : Int) := by
    rw [Nat.add_mul, Int.natCast_add]
  have hround := roundUnits_of_representable (representable_whole h)
  show ofTotal ((m * unitsPerOne : Nat) + (n * unitsPerOne : Nat)) false 1 = _
  rw [hunits, ofTotal, Int.natAbs_natCast, ofRatio]
  have hsign (k : Nat) : (if (k : Int) = 0 then false else decide ((k : Int) < 0)) = false := by simp
  simp only [hround, hsign]
  rw [dif_pos (representable_whole h)]

end Binary64

/-! ## Rounding to infinity -/

/-- **When a quotient is rounded to less than an even number**: if it is less than halfway from the number
before. -/
theorem divEven_lt_iff {num den bound : Nat} (hden : 0 < den) (heven : bound % 2 = 0) :
    divEven num den < bound ↔ 2 * num + den < 2 * (bound * den) := by
  have hnum : num = num / den * den + num % den := by
    rw [Nat.mul_comm]
    exact (Nat.div_add_mod num den).symm
  have hrest : num % den < den := Nat.mod_lt num hden
  have hbelow (k : Nat) (h : num / den + k ≤ bound) : num / den * den + k * den ≤ bound * den := by
    rw [← Nat.add_mul]
    exact Nat.mul_le_mul_right den h
  have habove (k : Nat) (h : bound ≤ num / den + k) : bound * den ≤ num / den * den + k * den := by
    rw [← Nat.add_mul]
    exact Nat.mul_le_mul_right den h
  have hbelowOne := hbelow 1
  have hbelowTwo := hbelow 2
  have haboveZero := habove 0
  have haboveOne := habove 1
  unfold divEven
  dsimp only
  generalize num / den = quotient at *
  generalize num % den = rest at *
  generalize bound * den = limit at *
  generalize quotient * den = floor at *
  split
  · omega
  · split <;> omega

/-- **When a magnitude is rounded to less than a power of two** above `2 ^ 53`: if it is less than halfway from
the last number of 53 digits before. -/
theorem roundUnits_lt_iff (units digits : Nat) :
    roundUnits units 1 < 2 ^ (53 + digits) ↔ 2 * units + 2 ^ digits < 2 * 2 ^ (53 + digits) := by
  have hround : roundUnits units 1 =
      divEven units (2 ^ (units.log2 - 52)) * 2 ^ (units.log2 - 52) := by
    simp only [roundUnits, Nat.div_one, Nat.one_mul]
  generalize hshift : units.log2 - 52 = shift at hround
  have hpos : 0 < 2 ^ shift := Nat.two_pow_pos shift
  rw [hround]
  rcases Nat.lt_or_ge digits shift with hlarge | hsmall
  · -- The magnitude is no less than the power already.
    have hle : 2 ^ (52 + shift) ≤ units := by
      have hne : units ≠ 0 := by
        rintro rfl
        rw [Nat.log2_zero] at hshift
        omega
      refine (Nat.le_log2 hne).1 ?_
      omega
    have hpow : 2 ^ (53 + digits) ≤ 2 ^ (52 + shift) := Nat.pow_le_pow_right (by decide) (by omega)
    have hquotient : ¬divEven units (2 ^ shift) < 2 ^ (52 : Nat) := by
      rw [divEven_lt_iff hpos (by decide), ← Nat.pow_add]
      omega
    have hrounded : 2 ^ (52 + shift) ≤ divEven units (2 ^ shift) * 2 ^ shift := by
      rw [Nat.pow_add]
      exact Nat.mul_le_mul_right _ (Nat.le_of_not_lt hquotient)
    have hdigits : 0 < 2 ^ digits := Nat.two_pow_pos digits
    generalize 2 ^ (53 + digits) = top at *
    omega
  · have hsplit : 2 ^ (53 + digits) = 2 ^ (53 + (digits - shift)) * 2 ^ shift := by
      rw [← Nat.pow_add]
      congr 1
      omega
    have heven : 2 ^ (53 + (digits - shift)) % 2 = 0 := by
      rw [Nat.pow_add]
      omega
    rw [hsplit, Nat.mul_lt_mul_right hpos, divEven_lt_iff hpos heven, ← hsplit]
    rcases Nat.lt_or_eq_of_le hsmall with hless | rfl
    · -- The magnitude has fewer digits, and both hold.
      have hunits : units < 2 ^ (52 + digits) :=
        Nat.lt_of_lt_of_le Nat.lt_log2_self (Nat.pow_le_pow_right (by decide) (by omega))
      have hdouble : 2 ^ (53 + digits) = 2 * 2 ^ (52 + digits) := by
        rw [← Nat.pow_succ']
        congr 1
        omega
      have hshifts : 2 ^ shift ≤ 2 ^ digits := Nat.pow_le_pow_right (by decide) hsmall
      have hdigits : 2 ^ digits ≤ 2 ^ (52 + digits) := Nat.pow_le_pow_right (by decide) (by omega)
      rw [hdouble]
      generalize 2 ^ (52 + digits) = half at *
      omega
    · exact Iff.rfl

/-- Rounded magnitudes are finite below `2 ^ 1024`. -/
theorem representable_roundUnits_iff (units : Nat) :
    Representable (roundUnits units 1) ↔ roundUnits units 1 < 2 ^ (Binary64.unitExponent + 1024) := by
  have hexponent : Binary64.unitExponent + 1024 = 2098 := rfl
  refine ⟨fun h => ?_, fun h => ⟨?_, roundUnits_dvd units 1⟩⟩
  · have hlog : (roundUnits units 1).log2 + 1 ≤ Binary64.unitExponent + 1024 := by
      rw [hexponent]
      exact h.1
    exact Nat.lt_of_lt_of_le Nat.lt_log2_self (Nat.pow_le_pow_right (by decide) hlog)
  · rw [← hexponent]
    rcases Nat.eq_zero_or_pos (roundUnits units 1) with hzero | hpos
    · rw [hzero]
      decide
    · exact (Nat.log2_lt (Nat.ne_of_gt hpos)).2 h

theorem scaled_lt_iff (n half top exponent : Nat) :
    2 * (n * 2 ^ exponent) + 2 ^ (exponent + 1 + half) < 2 * 2 ^ (exponent + top) ↔
      n + 2 ^ half < 2 ^ top := by
  have hpos : 0 < 2 ^ (exponent + 1) := Nat.two_pow_pos _
  have hn : 2 * (n * 2 ^ exponent) = n * 2 ^ (exponent + 1) := by
    rw [Nat.pow_succ', Nat.mul_left_comm]
  have hhalf : 2 ^ (exponent + 1 + half) = 2 ^ half * 2 ^ (exponent + 1) := by
    rw [Nat.pow_add, Nat.mul_comm]
  have htop : 2 * 2 ^ (exponent + top) = 2 ^ top * 2 ^ (exponent + 1) := by
    rw [Nat.pow_add, Nat.pow_succ', Nat.mul_comm (2 ^ exponent), Nat.mul_left_comm]
  rw [hn, hhalf, htop, ← Nat.add_mul, Nat.mul_lt_mul_right hpos]

namespace Binary64

theorem notInfinite?_eq_none_iff {x : Binary64} : x.notInfinite? = none ↔ ∃ sign, x = .infinite sign := by
  cases x <;> simp [notInfinite?]

theorem exists_ofRatio_eq_infinite_iff {negative : Bool} {num den : Nat} :
    (∃ sign, ofRatio negative num den = .infinite sign) ↔ ¬Representable (roundUnits num den) := by
  unfold ofRatio
  by_cases h : Representable (roundUnits num den)
  · simp [h]
  · simp [h]

/-- A whole number has a binary64 number if it is rounded to a finite one. -/
theorem isSome_ofInt?_iff_representable (n : Int) :
    (ofInt? n).isSome ↔ Representable (roundUnits (n.natAbs * unitsPerOne) 1) := by
  rw [Option.isSome_iff_ne_none, ne_eq, ofInt?, notInfinite?_eq_none_iff, exists_ofRatio_eq_infinite_iff]
  exact Decidable.not_not

/-- **Which whole numbers are not too large.** -/
theorem isSome_ofInt?_iff (n : Int) : (ofInt? n).isSome ↔ n.natAbs + 2 ^ (970 : Nat) < 2 ^ (1024 : Nat) := by
  have htop : unitExponent + 1024 = 53 + (unitExponent + 1 + 970) := by omega
  rw [isSome_ofInt?_iff_representable, representable_roundUnits_iff, htop, roundUnits_lt_iff, ← htop,
    unitsPerOne, scaled_lt_iff]

/-- Whole numbers up to `2 ^ 53` are not too large. -/
theorem isSome_ofInt?_of_le {n : Int} (h : n.natAbs ≤ 2 ^ (53 : Nat)) : (ofInt? n).isSome = true := by
  rw [isSome_ofInt?_iff_representable, roundUnits_of_representable (representable_whole h)]
  exact representable_whole h

end Binary64

namespace Number

/-- **The numbers that are not too large** for a binary64 number: whole numbers below the point from which
they are rounded to infinity, and all others. -/
def InRange : Number → Prop
  | .whole n => n.natAbs + 2 ^ (970 : Nat) < 2 ^ (1024 : Nat)
  | .real _ => True
  | .truth _ => True

instance : (n : Number) → Decidable n.InRange
  | .whole _ => inferInstanceAs (Decidable (_ < _))
  | .real _ | .truth _ => inferInstanceAs (Decidable True)

/-- **Exactly the numbers in range can be converted.** -/
theorem isSome_toBinary64?_iff (n : Number) : n.toBinary64?.isSome ↔ n.InRange := by
  cases n with
  | whole n => exact Binary64.isSome_ofInt?_iff n
  | real x => exact ⟨fun _ => trivial, fun _ => rfl⟩
  | truth b =>
    refine ⟨fun _ => trivial, fun _ => Binary64.isSome_ofInt?_of_le ?_⟩
    cases b <;> decide

/-- Whole numbers up to `2 ^ 53` are in range. -/
theorem inRange_of_le {n : Int} (h : n.natAbs ≤ 2 ^ (53 : Nat)) : (whole n).InRange :=
  (Binary64.isSome_ofInt?_iff n).1 (Binary64.isSome_ofInt?_of_le h)

/-- A number that counts as false is a zero, which is in range. -/
theorem inRange_of_isTruthy_eq_false {n : Number} (h : n.isTruthy = false) : n.InRange := by
  cases n with
  | real x => trivial
  | truth b => trivial
  | whole n =>
    have hunits : (Binary64.unitsPerOne : Int) ≠ 0 :=
      Int.natCast_ne_zero.2 (Nat.ne_of_gt (Nat.two_pow_pos Binary64.unitExponent))
    have hzero : n = 0 := by
      simp only [isTruthy, eq, place?, Bool.not_eq_false', beq_iff_eq, Extended.units.injEq,
        Int.zero_mul] at h
      exact (Int.mul_eq_zero.1 h).resolve_right hunits
    subst hzero
    exact inRange_of_le (Nat.zero_le _)

end Number

end Telemetry
