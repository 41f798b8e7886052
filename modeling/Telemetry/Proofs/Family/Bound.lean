import Mathlib.Data.List.Induction
import Mathlib.Data.List.TakeWhile
import Telemetry.Family.Bound
import Telemetry.Proofs.Number.Written

/-!
# Texts of bounds

Different bounds have different texts. A bound with an exponent has lost its point and the zeros at its end,
but it is read back as the number that it was written for: the digits that are left have the same value, up
to zeros behind them.

## Main results

* `exists_trimDigits_eq`: what is left of digits once the zeros at their end are gone
* `Binary64.readFinite?_boundChars`: a finite bound is read back from its text
* `Binary64.boundText_injective`: different bounds have different texts
-/

namespace Telemetry

open Numeral

/-! ## Trimming -/

theorem trimDigits_concat_of {c : Char} (h : c = '0' ∨ c = '.') (chars : List Char) :
    trimDigits (chars ++ [c]) = trimDigits chars := by
  rcases h with rfl | rfl <;> simp [trimDigits]

theorem trimDigits_concat_of_not {c : Char} (hzero : c ≠ '0') (hpoint : c ≠ '.') (chars : List Char) :
    trimDigits (chars ++ [c]) = chars ++ [c] := by
  simp [trimDigits, hzero, hpoint]

/-- **What is left of digits once the zeros at their end are gone**: the first digit, and behind the point
what is more than zeros. -/
theorem exists_trimDigits_eq {first : Char} {digits : List Char} (hfirst : first.isDigit = true)
    (hdigits : AreDigits digits) (hvalue : digitsValue 0 (first :: digits) ≠ 0) :
    ∃ kept zeros, digits = kept ++ List.replicate zeros '0' ∧
      trimDigits (first :: '.' :: digits) = if kept = [] then [first] else first :: '.' :: kept := by
  have hpoint {c : Char} (hc : c.isDigit = true) : c ≠ '.' := by
    rintro rfl
    exact absurd hc (by decide)
  induction digits using List.reverseRecOn with
  | nil =>
    have hzero : first ≠ '0' := by
      rintro rfl
      exact hvalue rfl
    refine ⟨[], 0, rfl, ?_⟩
    calc
      trimDigits [first, '.'] = trimDigits [first] := trimDigits_concat_of (.inr rfl) [first]
      _ = [first] := trimDigits_concat_of_not hzero (hpoint hfirst) []
  | append_singleton digits c ih =>
    have hrest : AreDigits digits := fun d hd => hdigits d (List.mem_append_left _ hd)
    have hc : c.isDigit = true := hdigits c (by simp)
    by_cases hzero : c = '0'
    · subst hzero
      have hvalue' : digitsValue 0 (first :: digits) ≠ 0 := by
        intro h
        refine hvalue ?_
        rw [← List.cons_append, ← digitsValue_append, h]
        rfl
      obtain ⟨kept, zeros, hkept, htrim⟩ := ih hrest hvalue'
      refine ⟨kept, zeros + 1, ?_, ?_⟩
      · rw [hkept, List.append_assoc, ← List.replicate_succ']
      · rw [← htrim]
        exact trimDigits_concat_of (.inl rfl) (first :: '.' :: digits)
    · refine ⟨digits ++ [c], 0, by simp, ?_⟩
      rw [if_neg (by simp)]
      exact trimDigits_concat_of_not hzero (hpoint hc) (first :: '.' :: digits)

/-! ## Bounds with exponents -/

/-- **A bound with an exponent is read back** up to zeros at the end, so it rounds to the same magnitude. -/
theorem scientific?_exponentBound {whole fraction : List Char} (hne : whole ≠ []) (hwhole : AreDigits whole)
    (hfraction : AreDigits fraction) (hvalue : digitsValue 0 (whole ++ fraction) ≠ 0) :
    ∃ s, scientific? (exponentBound whole fraction) = some s ∧
      s.decimal.round = (Decimal.mk (digitsValue 0 (whole ++ fraction)) (-fraction.length)).round := by
  cases whole with
  | nil => exact absurd rfl hne
  | cons first rest =>
    have hfirst : first.isDigit = true := hwhole first List.mem_cons_self
    have hrest : AreDigits rest := fun c hc => hwhole c (List.mem_cons_of_mem _ hc)
    obtain ⟨kept, zeros, hdigits, htrim⟩ :=
      exists_trimDigits_eq hfirst (hrest.append hfraction) hvalue
    have htail := isTail_exponentChars 2 rest.length
    have hone : AreDigits [first] := by simpa [AreDigits] using hfirst
    have hscale : Decimal.mk (digitsValue 0 (first :: rest ++ fraction)) (-fraction.length) =
        (Decimal.mk (digitsValue 0 (first :: kept)) (rest.length - kept.length)).scale zeros := by
      have hlength := congrArg List.length hdigits
      simp only [List.length_append, List.length_replicate] at hlength
      rw [List.cons_append, hdigits, ← List.cons_append, ← digitsValue_append, digitsValue_replicate,
        Decimal.scale, Decimal.mk.injEq]
      refine ⟨rfl, ?_⟩
      show -(fraction.length : Int) = rest.length - kept.length - zeros
      omega
    rw [hscale, Decimal.round_scale]
    simp only [exponentBound, htrim]
    by_cases hkept : kept = []
    · subst hkept
      refine ⟨_, scientific?_whole [first] (by simp) hone htail, ?_⟩
      rfl
    · rw [if_neg hkept]
      have hkeptDigits : AreDigits kept := by
        intro c hc
        refine (hrest.append hfraction) c ?_
        rw [hdigits]
        exact List.mem_append_left _ hc
      refine ⟨_, scientific?_point [first] kept (by simp) hone hkeptDigits htail, ?_⟩
      rw [Scientific.decimal, digitsValue_append, List.singleton_append]

/-! ## The text of a decimal -/

namespace Binary64

theorem finiteBoundChars_negative (chars : List Char) : finiteBoundChars true chars = chars := by
  unfold finiteBoundChars
  cases chars.dropWhile (· != '.') <;> simp

/-- What has no point is written as elsewhere. -/
theorem finiteBoundChars_of_not_mem {chars : List Char} (h : '.' ∉ chars) :
    finiteBoundChars false chars = chars := by
  have hdrop : chars.dropWhile (· != '.') = [] := by
    rw [List.dropWhile_eq_nil_iff]
    intro c hc
    refine bne_iff_ne.2 ?_
    rintro rfl
    exact h hc
  simp only [finiteBoundChars, hdrop]

/-- A bound gets an exponent if more than six digits stand before its point. -/
theorem finiteBoundChars_point {whole : List Char} (hwhole : AreDigits whole) (fraction : List Char) :
    finiteBoundChars false (whole ++ '.' :: fraction) =
      if whole.length > 6 then exponentBound whole fraction else whole ++ '.' :: fraction := by
  have hpoint : ∀ c ∈ whole, (c != '.') = true := by
    intro c hc
    refine bne_iff_ne.2 ?_
    rintro rfl
    exact absurd (hwhole _ hc) (by decide)
  have htake : (whole ++ '.' :: fraction).takeWhile (· != '.') = whole := by
    simp [List.takeWhile_append_of_pos hpoint]
  have hdrop : (whole ++ '.' :: fraction).dropWhile (· != '.') = '.' :: fraction := by
    simp [List.dropWhile_append_of_pos hpoint]
  simp only [finiteBoundChars, htake, hdrop, Bool.not_false, Bool.true_and, decide_eq_true_eq]

end Binary64

namespace Decimal

open Binary64

theorem point_not_mem_exponentChars (width : Nat) (exponent : Int) : '.' ∉ exponentChars width exponent := by
  intro h
  simp only [exponentChars, List.mem_cons, List.mem_append] at h
  rcases h with h | h | h
  · split at h <;> exact absurd h (by decide)
  · exact absurd (areDigits_replicate _ _ h) (by decide)
  · exact absurd (areDigits_toDigits _ _ h) (by decide)

/-- In positional notation there are digits on both sides of the point. -/
theorem exists_positionalChars_eq {digits : List Char} (hdigits : AreDigits digits) (hne : digits ≠ [])
    (point : Int) :
    ∃ whole fraction, positionalChars digits point = whole ++ '.' :: fraction ∧ whole ≠ [] ∧
      AreDigits whole ∧ AreDigits fraction := by
  have hzero : AreDigits ['0'] := by simp [AreDigits]
  unfold positionalChars
  by_cases hfront : point ≤ 0
  · rw [if_pos hfront]
    exact ⟨['0'], _, rfl, by simp, hzero, (areDigits_replicate _).append hdigits⟩
  · rw [if_neg hfront]
    by_cases hback : digits.length ≤ point.toNat
    · rw [if_pos hback]
      exact ⟨_, ['0'], rfl, by simp [hne], hdigits.append (areDigits_replicate _), hzero⟩
    · rw [if_neg hback]
      refine ⟨_, _, rfl, ?_, fun c hc => hdigits c (List.mem_of_mem_take hc),
        fun c hc => hdigits c (List.mem_of_mem_drop hc)⟩
      rw [← List.length_pos_iff, List.length_take]
      omega

/-- In scientific notation one digit at most stands before the point. -/
theorem finiteBoundChars_scientificChars {digits : List Char} (hdigits : AreDigits digits) (width : Nat)
    (exponent : Int) :
    finiteBoundChars false (scientificChars width digits exponent) =
      scientificChars width digits exponent := by
  match digits with
  | [] => rfl
  | [first] =>
    refine finiteBoundChars_of_not_mem fun hmem => ?_
    simp only [scientificChars, List.mem_cons] at hmem
    rcases hmem with rfl | hmem | hmem
    · exact absurd (hdigits _ List.mem_cons_self) (by decide)
    · exact absurd hmem (by decide)
    · exact point_not_mem_exponentChars width exponent hmem
  | first :: second :: rest =>
    have hfirst : AreDigits [first] := fun c hc => hdigits c (List.mem_of_mem_take (i := 1) hc)
    refine (finiteBoundChars_point hfirst _).trans ?_
    simp [scientificChars]

/-- **What becomes of a written decimal as a bound**: it has digits on both sides of its point, or stays as
it is. -/
theorem chars_point_or (layout : Layout) (d : Decimal) :
    (∃ whole fraction, d.chars layout = whole ++ '.' :: fraction ∧ whole ≠ [] ∧ AreDigits whole ∧
        AreDigits fraction) ∨
      finiteBoundChars false (d.chars layout) = d.chars layout := by
  unfold chars
  by_cases hzero : d.digits = 0
  · rw [if_pos hzero]
    exact .inr rfl
  · have hdigits := areDigits_significantDigits d.digits
    rw [if_neg hzero]
    dsimp only
    split
    · exact .inl (exists_positionalChars_eq hdigits (significantDigits_ne_nil hzero) _)
    · exact .inr (finiteBoundChars_scientificChars hdigits _ _)

/-- **A written decimal is read back as a bound**, too. -/
theorem scientific?_finiteBoundChars (layout : Layout) {d : Decimal} (hlog : d.digits.log2 < 7000)
    (hround : d.round ≠ 0) :
    ∃ s, scientific? (finiteBoundChars false (d.chars layout)) = some s ∧ s.decimal.round = d.round := by
  obtain ⟨s, hs, hsround⟩ := scientific?_chars layout hlog
  rcases chars_point_or layout d with ⟨whole, fraction, hchars, hne, hwhole, hfraction⟩ | hchars
  · have hread := scientific?_point whole fraction hne hwhole hfraction isTail_nil
    rw [List.append_nil, ← hchars, hs, Option.some.injEq] at hread
    subst hread
    have hdecimal : Scientific.decimal ⟨whole, fraction, 0⟩ =
        ⟨digitsValue 0 (whole ++ fraction), -fraction.length⟩ := by
      rw [Scientific.decimal, digitsValue_append]
      simp
    rw [hdecimal] at hsround
    rw [hchars, finiteBoundChars_point hwhole]
    by_cases hlong : whole.length > 6
    · rw [if_pos hlong, ← hsround]
      refine scientific?_exponentBound hne hwhole hfraction fun hvalue => hround ?_
      rw [← hsround, hvalue, round_zero]
    · rw [if_neg hlong, ← hchars]
      exact ⟨_, hs, by rw [hdecimal, hsround]⟩
  · rw [hchars]
    exact ⟨s, hs, hsround⟩

end Decimal

/-! ## Bounds -/

namespace Binary64

theorem splitSign_of_scientific? {chars : List Char} {s : Scientific} (h : scientific? chars = some s) :
    splitSign chars = (false, chars) := by
  unfold splitSign
  split
  · cases h
  · cases h
  · rfl

/-- **A finite bound is read back** from its text. -/
theorem readFinite?_boundChars (negative : Bool) {units : Nat} (h : Representable units) :
    readFinite? (boundChars (.finite negative units h)) = some (negative, units) := by
  cases negative with
  | true =>
    rw [boundChars, finiteBoundChars_negative]
    exact readFinite?_chars true h
  | false =>
    by_cases hzero : units = 0
    · subst hzero
      exact readFinite?_chars false h
    · have hround := Decimal.round_shortest h
      obtain ⟨s, hs, hsround⟩ := Decimal.scientific?_finiteBoundChars .standard
        (Decimal.log2_digits_shortest_lt h) (by rw [hround]; exact hzero)
      have hchars : boundChars (.finite false units h) =
          finiteBoundChars false ((Decimal.shortest units).chars .standard) := by
        simp [boundChars, chars, hzero]
      rw [hchars, readFinite?, splitSign_of_scientific? hs, hs, Option.map_some, hsround, hround]

/-- **Different bounds have different texts.** -/
theorem boundText_injective : Function.Injective boundText := by
  intro x y h
  refine injective_of_readFinite? (fun negative _ h => readFinite?_boundChars negative h) rfl
    (fun negative => by cases negative <;> rfl) (by simp [boundChars]) ?_
  exact String.ofList_injective h

end Binary64

end Telemetry
