import Telemetry.Number
import Telemetry.Proofs.Decimal.Reading

/-!
# Written numbers

Different numbers are written differently. The written form of a finite binary64 number is read back as a
sign and a magnitude; a whole number is written with digits alone, a binary64 number never is, and truth
values are written with capitals.

## Main definitions

* `Binary64.readFinite?`: sign and magnitude, read back from the written form of a finite number

## Main results

* `Binary64.chars_injective`: different binary64 numbers are written differently
* `Number.chars_injective`: numbers of different sorts or values are written differently
-/

namespace Telemetry

open Numeral

/-! ## Characters of decimals -/

namespace Decimal

/-- The characters of decimals: digits, and four others. -/
def IsMark (c : Char) : Prop :=
  c.isDigit = true ∨ c ∈ ['.', 'e', '+', '-']

theorem isMark_of_isDigit {c : Char} (h : c.isDigit = true) : IsMark c :=
  .inl h

theorem isMark_zero : IsMark '0' :=
  isMark_of_isDigit rfl

theorem isMark_point : IsMark '.' :=
  .inr (by decide)

theorem isMark_exponent : IsMark 'e' :=
  .inr (by decide)

theorem isMark_minus : IsMark '-' :=
  .inr (by decide)

theorem isMark_plus : IsMark '+' :=
  .inr (by decide)

theorem isMark_replicate {n : Nat} {c : Char} (h : c ∈ List.replicate n '0') : IsMark c :=
  isMark_of_isDigit (areDigits_replicate n c h)

theorem isMark_exponentChars {width : Nat} {exponent : Int} {c : Char}
    (h : c ∈ exponentChars width exponent) : IsMark c := by
  simp only [exponentChars, List.mem_cons, List.mem_append] at h
  rcases h with rfl | h | h
  · split
    · exact isMark_minus
    · exact isMark_plus
  · exact isMark_replicate h
  · exact isMark_of_isDigit (areDigits_toDigits _ c h)

theorem isMark_positionalChars {digits : List Char} (hdigits : AreDigits digits) {point : Int} {c : Char}
    (h : c ∈ positionalChars digits point) : IsMark c := by
  unfold positionalChars at h
  split at h
  · simp only [List.mem_cons, List.mem_append] at h
    rcases h with rfl | rfl | h | h
    · exact isMark_zero
    · exact isMark_point
    · exact isMark_replicate h
    · exact isMark_of_isDigit (hdigits c h)
  · split at h
    · simp only [List.mem_append, List.mem_cons, List.not_mem_nil, or_false] at h
      rcases h with (h | h) | rfl | rfl
      · exact isMark_of_isDigit (hdigits c h)
      · exact isMark_replicate h
      · exact isMark_point
      · exact isMark_zero
    · simp only [List.mem_append, List.mem_cons] at h
      rcases h with h | rfl | h
      · exact isMark_of_isDigit (hdigits c (List.mem_of_mem_take h))
      · exact isMark_point
      · exact isMark_of_isDigit (hdigits c (List.mem_of_mem_drop h))

theorem isMark_scientificChars {digits : List Char} (hdigits : AreDigits digits) {width : Nat}
    {exponent : Int} {c : Char} (h : c ∈ scientificChars width digits exponent) : IsMark c := by
  unfold scientificChars at h
  split at h
  · exact absurd h List.not_mem_nil
  · simp only [List.mem_cons] at h
    rcases h with rfl | rfl | h
    · exact isMark_of_isDigit (hdigits c List.mem_cons_self)
    · exact isMark_exponent
    · exact isMark_exponentChars h
  · next first rest _ =>
    simp only [List.mem_cons, List.mem_append] at h
    rcases h with rfl | rfl | h | rfl | h
    · exact isMark_of_isDigit (hdigits c List.mem_cons_self)
    · exact isMark_point
    · exact isMark_of_isDigit (hdigits c (List.mem_cons_of_mem _ h))
    · exact isMark_exponent
    · exact isMark_exponentChars h

/-- **The characters of a written decimal.** -/
theorem isMark_chars {layout : Layout} {d : Decimal} {c : Char} (h : c ∈ d.chars layout) : IsMark c := by
  unfold chars at h
  split at h
  · simp only [List.mem_cons, List.not_mem_nil, or_false] at h
    rcases h with rfl | rfl | rfl
    · exact isMark_zero
    · exact isMark_point
    · exact isMark_zero
  · have hdigits := areDigits_significantDigits d.digits
    dsimp only at h
    split at h
    · exact isMark_positionalChars hdigits h
    · exact isMark_scientificChars hdigits h

theorem exists_chars_eq_cons (layout : Layout) (d : Decimal) :
    ∃ c rest, d.chars layout = c :: rest ∧ c.isDigit = true := by
  unfold chars
  split
  · exact ⟨'0', _, rfl, rfl⟩
  · next hne =>
    obtain ⟨first, rest, hfirst⟩ := List.exists_cons_of_ne_nil (significantDigits_ne_nil hne)
    have hdigit : first.isDigit = true := areDigits_significantDigits d.digits first (by simp [hfirst])
    dsimp only
    rw [hfirst]
    split
    · unfold positionalChars
      split
      · exact ⟨'0', _, rfl, rfl⟩
      · split
        · exact ⟨first, _, rfl, hdigit⟩
        · next hpos _ =>
          obtain ⟨n, hn⟩ : ∃ n, (((log10 d.digits : Int) + d.exponent + 1).toNat) = n + 1 :=
            ⟨((log10 d.digits : Int) + d.exponent + 1).toNat - 1, by omega⟩
          rw [hn]
          exact ⟨first, _, rfl, hdigit⟩
    · cases rest with
      | nil => exact ⟨first, _, rfl, hdigit⟩
      | cons second rest => exact ⟨first, _, rfl, hdigit⟩

/-- A written decimal has a point or an exponent. -/
theorem exists_mem_chars (layout : Layout) (d : Decimal) :
    ∃ c ∈ d.chars layout, c = '.' ∨ c = 'e' := by
  unfold chars
  split
  · exact ⟨'.', by simp, .inl rfl⟩
  · next hne =>
    obtain ⟨first, rest, hfirst⟩ := List.exists_cons_of_ne_nil (significantDigits_ne_nil hne)
    dsimp only
    split
    · refine ⟨'.', ?_, .inl rfl⟩
      unfold positionalChars
      split
      · simp
      · split <;> simp
    · refine ⟨'e', ?_, .inr rfl⟩
      rw [hfirst]
      cases rest <;> simp [scientificChars]

end Decimal

/-! ## Binary64 numbers -/

namespace Binary64

/-- **Sign and magnitude**, read back from the written form of a finite number. -/
def readFinite? (chars : List Char) : Option (Bool × Nat) :=
  (scientific? (splitSign chars).2).map fun s => ((splitSign chars).1, s.decimal.round)

/-- The decimal that is written for a magnitude reads back. -/
theorem exists_scientific?_eq {units : Nat} (h : Representable units) :
    ∃ s, scientific? ((if units = 0 then ⟨0, 0⟩ else Decimal.shortest units).chars .standard) = some s ∧
      s.decimal.round = units := by
  split
  · next hzero =>
    obtain ⟨s, hs, hround⟩ := Decimal.scientific?_chars .standard (d := ⟨0, 0⟩) (by decide)
    exact ⟨s, hs, by rw [hround, Decimal.round_zero, hzero]⟩
  · obtain ⟨s, hs, hround⟩ := Decimal.scientific?_chars .standard (Decimal.log2_digits_shortest_lt h)
    exact ⟨s, hs, by rw [hround, Decimal.round_shortest h]⟩

/-- **A finite number is read back** from its written form. -/
theorem readFinite?_chars (negative : Bool) {units : Nat} (h : Representable units) :
    readFinite? (chars (.finite negative units h)) = some (negative, units) := by
  obtain ⟨s, hs, hround⟩ := exists_scientific?_eq h
  simp only [chars]
  generalize (if units = 0 then ⟨0, 0⟩ else Decimal.shortest units) = d at hs ⊢
  obtain ⟨first, rest, hfirst, hdigit⟩ := Decimal.exists_chars_eq_cons .standard d
  cases negative with
  | true => simp [readFinite?, splitSign, hs, hround]
  | false =>
    have hsign : splitSign (d.chars .standard) = (false, d.chars .standard) := by
      rw [hfirst]
      exact splitSign_cons_of_isDigit hdigit rest
    simp [readFinite?, hsign, hs, hround]

/-- Numbers are written differently if finite ones are read back, and the others have names of their own that
do not read as finite numbers. -/
theorem injective_of_readFinite? {write : Binary64 → List Char}
    (hfinite : ∀ negative units h, readFinite? (write (.finite negative units h)) = some (negative, units))
    (hnan : readFinite? (write .nan) = none)
    (hinf : ∀ negative, readFinite? (write (.infinite negative)) = none)
    (hnames : [write .nan, write (.infinite false), write (.infinite true)].Nodup) :
    Function.Injective write := by
  simp only [List.nodup_cons, List.mem_cons, List.not_mem_nil, or_false, not_or, List.nodup_nil,
    not_false_eq_true, and_true] at hnames
  obtain ⟨⟨htop, hbottom⟩, hends⟩ := hnames
  intro x y h
  have hread := congrArg readFinite? h
  cases x with
  | nan =>
    cases y with
    | nan => rfl
    | infinite b =>
      cases b with
      | false => exact absurd h htop
      | true => exact absurd h hbottom
    | finite b v hv => rw [hnan, hfinite] at hread; cases hread
  | infinite a =>
    cases y with
    | nan =>
      cases a with
      | false => exact absurd h.symm htop
      | true => exact absurd h.symm hbottom
    | infinite b =>
      cases a <;> cases b
      · rfl
      · exact absurd h hends
      · exact absurd h.symm hends
      · rfl
    | finite b v hv => rw [hinf, hfinite] at hread; cases hread
  | finite a u hu =>
    cases y with
    | nan => rw [hnan, hfinite] at hread; cases hread
    | infinite b => rw [hinf, hfinite] at hread; cases hread
    | finite b v hv =>
      rw [hfinite, hfinite, Option.some.injEq, Prod.mk.injEq] at hread
      obtain ⟨rfl, rfl⟩ := hread
      rfl

/-- **Different binary64 numbers are written differently.** -/
theorem chars_injective : Function.Injective chars :=
  injective_of_readFinite? (fun negative _ h => readFinite?_chars negative h) rfl
    (fun negative => by cases negative <;> rfl) (by simp [chars])

/-- The characters of a written number: those of decimals, and four letters. -/
theorem isMark_or_mem_of_mem_chars {x : Binary64} {c : Char} (h : c ∈ x.chars) :
    Decimal.IsMark c ∨ c ∈ ['n', 'a', 'i', 'f'] := by
  cases x with
  | nan =>
    refine .inr ?_
    simp only [chars, List.mem_cons, List.not_mem_nil, or_false] at h
    rcases h with rfl | rfl | rfl <;> decide
  | infinite negative =>
    cases negative <;> simp only [chars, List.mem_cons, List.not_mem_nil, or_false] at h
    · refine .inr ?_
      rcases h with rfl | rfl | rfl <;> decide
    · rcases h with rfl | h
      · exact .inl Decimal.isMark_minus
      · refine .inr ?_
        rcases h with rfl | rfl | rfl <;> decide
  | finite negative units hunits =>
    refine .inl ?_
    simp only [chars] at h
    split at h
    · rcases List.mem_cons.1 h with rfl | h
      · exact Decimal.isMark_minus
      · exact Decimal.isMark_chars h
    · exact Decimal.isMark_chars h

/-- A written number is not made of digits and a sign alone. -/
theorem exists_mem_chars (x : Binary64) : ∃ c ∈ x.chars, c.isDigit = false ∧ c ≠ '-' := by
  cases x with
  | nan => exact ⟨'n', by decide, by decide⟩
  | infinite negative => exact ⟨'i', by cases negative <;> decide, by decide⟩
  | finite negative units hunits =>
    simp only [chars]
    generalize (if units = 0 then ⟨0, 0⟩ else Decimal.shortest units) = d
    obtain ⟨c, hc, hmark⟩ := Decimal.exists_mem_chars .standard d
    refine ⟨c, ?_, by rcases hmark with rfl | rfl <;> decide⟩
    split
    · exact List.mem_cons_of_mem _ hc
    · exact hc

end Binary64

/-! ## Numbers as recorded -/

namespace Number

theorem mem_wholeChars {n : Int} {c : Char} (h : c ∈ wholeChars n) : c.isDigit = true ∨ c = '-' := by
  unfold wholeChars at h
  split at h
  · rcases List.mem_cons.1 h with rfl | h
    · exact .inr rfl
    · exact .inl (areDigits_toDigits _ c h)
  · exact .inl (areDigits_toDigits _ c h)

/-- The sign of a whole number and its digits are read back. -/
theorem splitSign_wholeChars (n : Int) :
    splitSign (wholeChars n) = (decide (n < 0), Nat.toDigits 10 n.natAbs) := by
  unfold wholeChars
  split
  · next h => simp [splitSign, h]
  · next h =>
    obtain ⟨first, rest, hfirst⟩ := List.exists_cons_of_ne_nil (Nat.toDigits_ne_nil (b := 10) (n := n.natAbs))
    have hdigit := areDigits_toDigits n.natAbs first (by simp [hfirst])
    rw [hfirst, splitSign_cons_of_isDigit hdigit]
    simp [h]

theorem wholeChars_injective : Function.Injective wholeChars := by
  intro m n h
  have hsplit := congrArg splitSign h
  rw [splitSign_wholeChars, splitSign_wholeChars, Prod.mk.injEq, decide_eq_decide] at hsplit
  obtain ⟨hsign, hdigits⟩ := hsplit
  have habs := congrArg (digitsValue 0) hdigits
  rw [digitsValue_toDigits, digitsValue_toDigits] at habs
  omega

def capitals : List Char := ['T', 'F', 'N']

theorem not_mem_wholeChars {c : Char} (hc : c ∈ capitals) (n : Int) : c ∉ wholeChars n := by
  intro h
  have hdigit := mem_wholeChars h
  simp only [capitals, List.mem_cons, List.not_mem_nil, or_false] at hc
  rcases hc with rfl | rfl | rfl <;> revert hdigit <;> decide

theorem not_mem_chars_real {c : Char} (hc : c ∈ capitals) (x : Binary64) : c ∉ x.chars := by
  intro h
  have hmark := Binary64.isMark_or_mem_of_mem_chars h
  unfold Decimal.IsMark at hmark
  simp only [capitals, List.mem_cons, List.not_mem_nil, or_false] at hc
  rcases hc with rfl | rfl | rfl <;> revert hmark <;> decide

theorem wholeChars_ne_chars (n : Int) (x : Binary64) : wholeChars n ≠ x.chars := by
  intro h
  obtain ⟨c, hc, hdigit, hsign⟩ := x.exists_mem_chars
  rw [← h] at hc
  rcases mem_wholeChars hc with hc | hc
  · rw [hc] at hdigit
    cases hdigit
  · exact hsign hc

theorem exists_capital_mem_truth (b : Bool) : ∃ c ∈ capitals, c ∈ (truth b).chars := by
  cases b with
  | true => exact ⟨'T', by decide, by decide⟩
  | false => exact ⟨'F', by decide, by decide⟩

/-- **Different numbers are written differently**, whatever their sorts. -/
theorem chars_injective : Function.Injective chars := by
  intro m n h
  -- Numbers of different sorts differ in a character: a point, an exponent, a letter or a capital.
  cases m with
  | whole m =>
    cases n with
    | whole n => rw [wholeChars_injective h]
    | real y => exact absurd h (wholeChars_ne_chars m y)
    | truth b =>
      obtain ⟨c, hc, hmem⟩ := exists_capital_mem_truth b
      rw [← h] at hmem
      exact absurd hmem (not_mem_wholeChars hc m)
  | real x =>
    cases n with
    | whole n => exact absurd h.symm (wholeChars_ne_chars n x)
    | real y => rw [Binary64.chars_injective h]
    | truth b =>
      obtain ⟨c, hc, hmem⟩ := exists_capital_mem_truth b
      rw [← h] at hmem
      exact absurd hmem (not_mem_chars_real hc x)
  | truth a =>
    obtain ⟨c, hc, hmem⟩ := exists_capital_mem_truth a
    cases n with
    | whole n =>
      rw [h] at hmem
      exact absurd hmem (not_mem_wholeChars hc n)
    | real y =>
      rw [h] at hmem
      exact absurd hmem (not_mem_chars_real hc y)
    | truth b => cases a <;> cases b <;> simp [chars] at h ⊢

/-- No number is written as the word for nothing. -/
theorem chars_ne_none (n : Number) : n.chars ≠ ['N', 'o', 'n', 'e'] := by
  intro h
  have hmem : 'N' ∈ n.chars := h ▸ List.mem_cons_self
  cases n with
  | whole n => exact not_mem_wholeChars (by decide) n hmem
  | real x => exact not_mem_chars_real (by decide) x hmem
  | truth b => cases b <;> cases h

theorem chars_ne_nil (n : Number) : n.chars ≠ [] := by
  intro h
  cases n with
  | whole n =>
    have hdigits : Nat.toDigits 10 n.natAbs ≠ [] := Nat.toDigits_ne_nil
    simp only [chars, wholeChars] at h
    split at h
    · cases h
    · exact hdigits h
  | real x =>
    obtain ⟨c, hc, _⟩ := x.exists_mem_chars
    have hnil : x.chars = [] := h
    rw [hnil] at hc
    cases hc
  | truth b => cases b <;> cases h

end Number

end Telemetry
