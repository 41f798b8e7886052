import Mathlib.Data.List.TakeDrop
import Telemetry.Numeral
import Telemetry.Proofs.Decimal.Magnitude

/-!
# Reading written decimals

A written decimal is a numeral: its digits, its point and its exponent can be read back, in every layout. The
decimal that is read may have other zeros at the end than the one that was written, and rounds to the same
magnitude.

## Main definitions

* `Numeral.Scientific.decimal`: the decimal that the parts of a numeral name
* `Decimal.significant`: a decimal without the zeros at its end

## Main results

* `Decimal.scientific?_chars`: a written decimal is read back up to zeros at the end
-/

namespace Telemetry

-- Powers are those of whole numbers in the core library, whatever else is in scope.
attribute [local instance (2000)] instPowNat

namespace Numeral

/-! ## Digits -/

theorem digitsValue_eq_ofDigitChars (start : Nat) (digits : List Char) :
    digitsValue start digits = Nat.ofDigitChars 10 digits start := by
  simp only [digitsValue, Nat.ofDigitChars, Nat.mul_comm]

theorem digitsValue_append (start : Nat) (digits more : List Char) :
    digitsValue (digitsValue start digits) more = digitsValue start (digits ++ more) :=
  List.foldl_append.symm

@[simp] theorem digitsValue_toDigits (n : Nat) : digitsValue 0 (Nat.toDigits 10 n) = n := by
  rw [digitsValue_eq_ofDigitChars, Nat.ofDigitChars_toDigits (by decide) (by decide)]

@[simp] theorem digitsValue_replicate (start zeros : Nat) :
    digitsValue start (List.replicate zeros '0') = start * 10 ^ zeros := by
  rw [digitsValue_eq_ofDigitChars, Nat.ofDigitChars_replicate_zero, Nat.mul_comm]

/-- **The decimal that the parts of a numeral name.** -/
def Scientific.decimal (s : Scientific) : Decimal :=
  ⟨digitsValue (digitsValue 0 s.whole) s.fraction, s.exponent - s.fraction.length⟩

def AreDigits (chars : List Char) : Prop :=
  ∀ c ∈ chars, c.isDigit = true

theorem AreDigits.append {xs ys : List Char} (hx : AreDigits xs) (hy : AreDigits ys) :
    AreDigits (xs ++ ys) := by
  intro c hc
  rcases List.mem_append.1 hc with hc | hc
  · exact hx c hc
  · exact hy c hc

theorem areDigits_toDigits (n : Nat) : AreDigits (Nat.toDigits 10 n) :=
  fun _ hc => Nat.isDigit_of_mem_toDigits (by decide) (by decide) hc

theorem areDigits_replicate (zeros : Nat) : AreDigits (List.replicate zeros '0') := by
  intro c hc
  rw [List.eq_of_mem_replicate hc]
  rfl

/-- The digits at the front of a text are found if no digit follows. -/
theorem splitDigits_append {digits rest : List Char} (hdigits : AreDigits digits)
    (hrest : ∀ c ∈ rest.head?, c.isDigit = false) : splitDigits (digits ++ rest) = (digits, rest) := by
  rw [splitDigits, List.span_eq_takeWhile_dropWhile, List.takeWhile_append_of_pos hdigits,
    List.dropWhile_append_of_pos hdigits]
  cases rest with
  | nil => simp
  | cons c rest =>
    have hc := hrest c rfl
    simp [hc]

/-! ## Exponents -/

theorem splitSign_cons_of_isDigit {c : Char} (h : c.isDigit = true) (rest : List Char) :
    splitSign (c :: rest) = (false, c :: rest) := by
  unfold splitSign
  split
  · next heq => cases heq; exact absurd h (by decide)
  · next heq => cases heq; exact absurd h (by decide)
  · rfl

/-- **A written exponent is read back.** -/
theorem exponent?_exponentChars (width : Nat) (exponent : Int) :
    exponent? ('e' :: Decimal.exponentChars width exponent) = some exponent := by
  generalize hzeros : width - (Nat.toDigits 10 exponent.natAbs).length = zeros
  have hsplit : splitDigits (List.replicate zeros '0' ++ Nat.toDigits 10 exponent.natAbs) =
      (List.replicate zeros '0' ++ Nat.toDigits 10 exponent.natAbs, []) := by
    have hdigits := (areDigits_replicate zeros).append (areDigits_toDigits exponent.natAbs)
    have hend : ∀ c ∈ ([] : List Char).head?, c.isDigit = false := by simp
    simpa using splitDigits_append hdigits hend
  have hvalue : digitsValue 0 (List.replicate zeros '0' ++ Nat.toDigits 10 exponent.natAbs) =
      exponent.natAbs := by
    rw [← digitsValue_append, digitsValue_replicate, Nat.zero_mul, digitsValue_toDigits]
  have hdigits : (List.replicate zeros '0' ++ Nat.toDigits 10 exponent.natAbs).isEmpty = false := by
    rw [List.isEmpty_eq_false_iff]
    exact List.append_ne_nil_of_right_ne_nil _ Nat.toDigits_ne_nil
  have hsign : splitSign (Decimal.exponentChars width exponent) =
      (decide (exponent < 0), List.replicate zeros '0' ++ Nat.toDigits 10 exponent.natAbs) := by
    by_cases hneg : exponent < 0
    · simp only [Decimal.exponentChars, hneg, if_true, hzeros, splitSign, decide_true]
    · simp only [Decimal.exponentChars, hneg, if_false, hzeros, splitSign, decide_false]
  simp only [exponent?, true_or, if_true, hsign, hsplit, hvalue, hdigits, List.isEmpty_nil,
    not_true_eq_false, Bool.false_eq_true, or_self, if_false, Option.some.injEq, decide_eq_true_eq]
  split <;> omega

/-! ## Numerals -/

/-- What may stand behind the digits of a numeral: nothing, or an exponent. -/
def IsTail (tail : List Char) (exponent : Int) : Prop :=
  exponent? tail = some exponent ∧ ∀ c ∈ tail.head?, c.isDigit = false ∧ c ≠ '.'

theorem isTail_nil : IsTail [] 0 :=
  ⟨rfl, by simp⟩

theorem isTail_exponentChars (width : Nat) (exponent : Int) :
    IsTail ('e' :: Decimal.exponentChars width exponent) exponent := by
  refine ⟨exponent?_exponentChars width exponent, fun c hc => ?_⟩
  rw [List.head?_cons, Option.mem_some_iff] at hc
  rw [← hc]
  decide

/-- A numeral with a point is read part by part. -/
theorem scientific?_point (whole fraction : List Char) {tail : List Char} {exponent : Int} (hne : whole ≠ [])
    (hwhole : AreDigits whole) (hfraction : AreDigits fraction) (htail : IsTail tail exponent) :
    scientific? (whole ++ '.' :: (fraction ++ tail)) = some ⟨whole, fraction, exponent⟩ := by
  have hfront : splitDigits (whole ++ '.' :: (fraction ++ tail)) =
      (whole, '.' :: (fraction ++ tail)) :=
    splitDigits_append hwhole (by simp)
  have hback : splitDigits (fraction ++ tail) = (fraction, tail) :=
    splitDigits_append hfraction fun c hc => (htail.2 c hc).1
  simp [scientific?, hfront, hback, htail.1, hne]

/-- A numeral without a point is read part by part. -/
theorem scientific?_whole (whole : List Char) {tail : List Char} {exponent : Int} (hne : whole ≠ [])
    (hwhole : AreDigits whole) (htail : IsTail tail exponent) :
    scientific? (whole ++ tail) = some ⟨whole, [], exponent⟩ := by
  have hfront : splitDigits (whole ++ tail) = (whole, tail) :=
    splitDigits_append hwhole fun c hc => (htail.2 c hc).1
  simp only [scientific?, hfront]
  split
  · exact absurd rfl (htail.2 '.' rfl).2
  · simp [htail.1, hne]

end Numeral

open Numeral

namespace Decimal

/-! ## Significant digits -/

/-- **The digits of a number** are its significant digits and zeros. -/
theorem exists_toDigits_eq (n : Nat) :
    ∃ zeros, Nat.toDigits 10 n = significantDigits n ++ List.replicate zeros '0' := by
  have hsplit : Nat.toDigits 10 n = significantDigits n ++
      ((Nat.toDigits 10 n).reverse.takeWhile (· == '0')).reverse := by
    rw [significantDigits, ← List.reverse_append, List.takeWhile_append_dropWhile,
      List.reverse_reverse]
  refine ⟨((Nat.toDigits 10 n).reverse.takeWhile (· == '0')).length, ?_⟩
  conv => lhs; rw [hsplit]
  rw [List.eq_replicate_of_mem (a := '0') (l := List.reverse _) fun c hc => ?_, List.length_reverse]
  have hall := List.all_takeWhile (l := (Nat.toDigits 10 n).reverse) (p := (· == '0'))
  simpa using List.all_eq_true.1 hall c (List.mem_reverse.1 hc)

theorem areDigits_significantDigits (n : Nat) : AreDigits (significantDigits n) := by
  obtain ⟨zeros, hdigits⟩ := exists_toDigits_eq n
  intro c hc
  refine areDigits_toDigits n c ?_
  rw [hdigits]
  exact List.mem_append_left _ hc

theorem significantDigits_ne_nil {n : Nat} (h : n ≠ 0) : significantDigits n ≠ [] := by
  intro hnil
  obtain ⟨zeros, hdigits⟩ := exists_toDigits_eq n
  have hvalue := congrArg (digitsValue 0) hdigits
  rw [hnil, List.nil_append, digitsValue_toDigits, digitsValue_replicate, Nat.zero_mul] at hvalue
  exact h hvalue

/-- **The significant part** of a decimal: its significant digits, with the exponent of the last of them. -/
def significant (d : Decimal) : Decimal :=
  ⟨digitsValue 0 (significantDigits d.digits),
    d.exponent + ((Nat.toDigits 10 d.digits).length - (significantDigits d.digits).length : Int)⟩

/-- A decimal is its significant part with zeros behind it. -/
theorem round_significant (d : Decimal) : d.significant.round = d.round := by
  obtain ⟨zeros, hdigits⟩ := exists_toDigits_eq d.digits
  have hvalue : d.digits = digitsValue 0 (significantDigits d.digits) * 10 ^ zeros := by
    have := congrArg (digitsValue 0) hdigits
    rwa [digitsValue_toDigits, ← digitsValue_append, digitsValue_replicate] at this
  have hlength : ((Nat.toDigits 10 d.digits).length : Int) =
      (significantDigits d.digits).length + zeros := by
    have := congrArg List.length hdigits
    rw [List.length_append, List.length_replicate] at this
    omega
  have hscale : d = d.significant.scale zeros := by
    rw [significant, scale, ← hvalue, hlength]
    cases d
    simp only [mk.injEq, true_and]
    omega
  conv => rhs; rw [hscale]
  rw [round_scale]

/-! ## Layouts -/

/-- Positional notation is read back, with zeros behind the point perhaps. -/
theorem scientific?_positionalChars {digits : List Char} (hdigits : AreDigits digits)
    (hne : digits ≠ []) (point exponent : Int) (hpoint : point = digits.length + exponent) :
    ∃ s zeros, scientific? (positionalChars digits point) = some s ∧
      s.decimal = (Decimal.mk (digitsValue 0 digits) exponent).scale zeros := by
  have hlength : 0 < digits.length := List.length_pos_iff.2 hne
  unfold positionalChars
  split
  · -- All digits stand behind the point, after zeros.
    next hneg =>
    have hread := scientific?_point ['0'] _ (by simp) (by simp [AreDigits])
      ((areDigits_replicate point.natAbs).append hdigits) isTail_nil
    rw [List.append_nil] at hread
    refine ⟨_, 0, hread, ?_⟩
    simp only [Scientific.decimal, scale, Nat.pow_zero, Nat.mul_one, mk.injEq, List.length_append,
      List.length_replicate]
    refine ⟨?_, by omega⟩
    rw [digitsValue_append, ← List.append_assoc, ← digitsValue_append]
    exact congrArg (digitsValue · digits) ((digitsValue_replicate 0 (point.natAbs + 1)).trans (Nat.zero_mul _))
  · split
    · -- All digits stand in front of the point, and zeros behind them.
      next hlong =>
      have hread := scientific?_point
        (digits ++ List.replicate (point.toNat - digits.length) '0') ['0']
        (by simp [hne]) (hdigits.append (areDigits_replicate _)) (by simp [AreDigits]) isTail_nil
      refine ⟨_, point.toNat - digits.length + 1, hread, ?_⟩
      have hplaces : (0 : Int) - (['0'].length : Nat) =
          exponent - (point.toNat - digits.length + 1 : Nat) := by
        rw [List.length_singleton]
        omega
      rw [Scientific.decimal, scale, hplaces, ← digitsValue_append, digitsValue_replicate, Nat.pow_succ,
        ← Nat.mul_assoc]
      exact congrArg (Decimal.mk · _) (digitsValue_replicate _ 1)
    · -- The point stands among the digits.
      next hpos hshort =>
      have htake : AreDigits (digits.take point.toNat) := fun c hc => hdigits c (List.mem_of_mem_take hc)
      have hdrop : AreDigits (digits.drop point.toNat) := fun c hc => hdigits c (List.mem_of_mem_drop hc)
      have hfront : digits.take point.toNat ≠ [] := by
        rw [← List.length_pos_iff, List.length_take]
        omega
      have hread := scientific?_point (digits.take point.toNat) _ hfront htake hdrop isTail_nil
      rw [List.append_nil] at hread
      refine ⟨_, 0, hread, ?_⟩
      simp only [Scientific.decimal, scale, digitsValue_append, List.take_append_drop, Nat.pow_zero,
        Nat.mul_one, mk.injEq, true_and, List.length_drop]
      omega

theorem scientific?_scientificChars {digits : List Char} (hdigits : AreDigits digits)
    (hne : digits ≠ []) (width : Nat) (leading exponent : Int)
    (hleading : leading + 1 = digits.length + exponent) :
    ∃ s, scientific? (scientificChars width digits leading) = some s ∧
      s.decimal = Decimal.mk (digitsValue 0 digits) exponent := by
  have htail := isTail_exponentChars width leading
  match digits, hne with
  | [first], _ =>
    refine ⟨_, scientific?_whole [first] (by simp) hdigits htail, ?_⟩
    rw [List.length_singleton] at hleading
    simp only [Scientific.decimal, digitsValue_append, List.append_nil, List.length_nil, mk.injEq, true_and]
    omega
  | first :: second :: rest, _ =>
    have hfirst : AreDigits [first] := fun c hc =>
      hdigits c (List.mem_of_mem_take (i := 1) hc)
    have hrest : AreDigits (second :: rest) := fun c hc => hdigits c (List.mem_cons_of_mem _ hc)
    refine ⟨_, scientific?_point [first] _ (by simp) hfirst hrest htail, ?_⟩
    rw [List.length_cons] at hleading
    simp only [Scientific.decimal, digitsValue_append, List.singleton_append, mk.injEq, true_and]
    omega

/-- **A written decimal is read back** up to zeros at the end, so it rounds to the same magnitude. -/
theorem scientific?_chars (layout : Layout) {d : Decimal} (hlog : d.digits.log2 < 7000) :
    ∃ s, scientific? (d.chars layout) = some s ∧ s.decimal.round = d.round := by
  unfold chars
  split
  · next hzero =>
    have hread := scientific?_point ['0'] ['0'] (by simp) (by simp [AreDigits])
      (by simp [AreDigits]) isTail_nil
    refine ⟨_, hread, ?_⟩
    obtain ⟨digits, exponent⟩ := d
    simp only at hzero
    subst hzero
    rw [round_zero]
    exact round_zero _
  · next hne =>
    have hdigits := areDigits_significantDigits d.digits
    have hnil := significantDigits_ne_nil hne
    have hlength := length_toDigits hne hlog
    have hpoint : log10 d.digits + d.exponent + 1 =
        (significantDigits d.digits).length + d.significant.exponent := by
      simp only [significant]
      omega
    rw [← round_significant]
    dsimp only
    split
    · obtain ⟨s, zeros, hread, hdecimal⟩ := scientific?_positionalChars hdigits hnil
        (log10 d.digits + d.exponent + 1) d.significant.exponent hpoint
      refine ⟨s, hread, ?_⟩
      rw [hdecimal, round_scale]
      rfl
    · obtain ⟨s, hread, hdecimal⟩ := scientific?_scientificChars hdigits hnil layout.exponentDigits
        (log10 d.digits + d.exponent) d.significant.exponent hpoint
      refine ⟨s, hread, ?_⟩
      rw [hdecimal]
      rfl

end Decimal

end Telemetry
