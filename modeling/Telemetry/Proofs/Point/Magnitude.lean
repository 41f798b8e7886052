import Telemetry.Point
import Telemetry.Proofs.Number.Whole
import Telemetry.Proofs.Point.Buckets

/-!
# Checks of numbers at every magnitude

The values of counters, the shares of quantiles and the counts of buckets are compared with their limits exactly. But the
first two are looked at as binary64 numbers before that, and the bounds of buckets are kept as such, while whole numbers
may be of any size, and those out of range have no binary64 number. So the checks hold up exactly for numbers in range:
what is acceptable is accepted, and all else is invalid. Beyond the range nothing is compared at all: a large value of a
counter is not accepted, and a large negative one, a large share or a large bound is not found to be invalid.

## Main definitions

* `HoldsUp`: a check that accepts what is acceptable, and finds all else invalid
* `CheckedInRange`: a check that holds up exactly in range, and fails to convert beyond it
* `Buckets.Acceptable`: bounds and counts that make buckets

## Main results

* `CounterValue.checkedInRange_ofDatum`, `Quantile.checkedInRange_make`, `Buckets.checkedInRange_make`: the checks of
  counter values, of quantiles and of buckets
* `Number.checks_hold_up_in_range`: all of these
* `Number.huge_not_checked`: numbers of which no check holds up
-/

namespace Telemetry

-- Powers are those of whole numbers in the core library, whatever else is in scope.
attribute [local instance (2000)] instPowNat

/-! ## Checks -/

/-- **A check that holds up**: something is made of what is acceptable, and all else is invalid. -/
def HoldsUp {α : Type} (result : Except Error α) (acceptable : Prop) : Prop :=
  ((∃ a, result = .ok a) ↔ acceptable) ∧ ∀ e, result = .error e → e.category = .invalid

theorem HoldsUp.accepted {α : Type} {a : α} {acceptable : Prop} (h : acceptable) :
    HoldsUp (.ok a : Except Error α) acceptable :=
  ⟨iff_of_true ⟨a, rfl⟩ h, fun e he => by cases he⟩

/-- What is not acceptable may be found invalid. -/
theorem HoldsUp.refused {α : Type} {e : Error} {acceptable : Prop} (he : e.category = .invalid) (h : ¬acceptable) :
    HoldsUp (.error e : Except Error α) acceptable := by
  refine ⟨iff_of_false (fun ⟨_, ha⟩ => by cases ha) h, fun e' he' => ?_⟩
  cases he'
  exact he

/-- **A check of numbers that are converted first.** It holds up exactly in range, and beyond it a number is too large. -/
structure CheckedInRange {α : Type} (result : Except Error α) (inRange acceptable : Prop) : Prop where
  holdsUp_iff : HoldsUp result acceptable ↔ inRange
  tooLarge : ¬inRange → result = .error (.argument .tooLarge)

section Checks

variable {α β : Type} {result : Except Error α} {inRange acceptable : Prop}

theorem CheckedInRange.of_holdsUp (hin : inRange → HoldsUp result acceptable)
    (hout : ¬inRange → result = .error (.argument .tooLarge)) : CheckedInRange result inRange acceptable where
  holdsUp_iff := by
    refine ⟨fun h => ?_, hin⟩
    by_contra hrange
    cases h.2 _ (hout hrange)
  tooLarge := hout

/-- A check stays one if something else is made of its results. -/
theorem CheckedInRange.bind (h : CheckedInRange result inRange acceptable) (f : α → β) :
    CheckedInRange (result >>= fun a => .ok (f a)) inRange acceptable := by
  refine .of_holdsUp (fun hrange => ?_) fun hrange => ?_
  · obtain ⟨hmade, hinvalid⟩ := h.holdsUp_iff.2 hrange
    refine ⟨?_, fun e he => ?_⟩
    · rw [← hmade]
      simp only [bind_eq_ok_iff]
      exact ⟨fun ⟨_, a, ha, _⟩ => ⟨a, ha⟩, fun ⟨a, ha⟩ => ⟨f a, a, ha, rfl⟩⟩
    · rcases bind_eq_error_iff.1 he with he | ⟨a, -, he⟩
      · exact hinvalid e he
      · cases he
  · rw [h.tooLarge hrange]
    rfl

end Checks

/-! ## Numbers -/

namespace Binary64

/-- A whole number is not converted to `nan` or an infinity. -/
theorem finite_of_ofInt? {n : Int} {x : Binary64} (h : ofInt? n = some x) :
    ∃ negative units representable, x = .finite negative units representable := by
  unfold ofInt? ofRatio at h
  split at h
  · cases h
    exact ⟨_, _, _, rfl⟩
  · cases h

end Binary64

namespace Number

variable {n : Number} {x : Binary64}

theorem toBinary64?_eq_none_iff : n.toBinary64? = none ↔ ¬n.InRange := by
  rw [← isSome_toBinary64?_iff, Option.not_isSome_iff_eq_none]

theorem exists_toBinary64?_iff : (∃ x, n.toBinary64? = some x) ↔ n.InRange := by
  rw [← isSome_toBinary64?_iff, Option.isSome_iff_exists]

/-- Numbers from zero on are those that are not `nan` and not negative. -/
theorem zero_le_iff : le (.whole 0) n = true ↔ n.isNaN = false ∧ n.isNegative = false := by
  have hzero : (whole 0).place? = some (.units (0 * Binary64.unitsPerOne)) := rfl
  cases hplace : n.place? with
  | none =>
    have hle : le (.whole 0) n = false := by
      rw [le, hzero, hplace]
    have hnan : n.isNaN = true := by
      rw [place?_eq_none_iff.1 hplace]
      rfl
    rw [hle, hnan]
    exact iff_of_false Bool.noConfusion fun h => Bool.noConfusion h.1
  | some p =>
    have hnumber : n.isNaN = false := isNaN_eq_false_iff.2 ⟨p, hplace⟩
    have hswap : compare p (.units (0 * Binary64.unitsPerOne)) =
        (compare (.units (0 * Binary64.unitsPerOne)) p).swap := Std.OrientedOrd.eq_swap
    have hle : le (.whole 0) n = (compare (.units (0 * Binary64.unitsPerOne)) p).isLE := by
      rw [le, hzero, hplace]
      rfl
    have hnegative : n.isNegative = (compare p (.units (0 * Binary64.unitsPerOne)) == .lt) := by
      rw [isNegative, lt, hzero, hplace]
      rfl
    rw [hle, hnegative, hswap, and_iff_right hnumber]
    cases compare (Extended.units (0 * Binary64.unitsPerOne)) p <;> decide

/-- What a number is converted to is itself, or a finite number. -/
theorem toBinary64?_cases (h : n.toBinary64? = some x) :
    n = .real x ∨ n.isNaN = false ∧ n ≠ .real (.infinite false) ∧
      ∃ negative units representable, x = .finite negative units representable := by
  cases n with
  | real y =>
    cases h
    exact .inl rfl
  | whole n => exact .inr ⟨rfl, Number.noConfusion, Binary64.finite_of_ofInt? h⟩
  | truth b => exact .inr ⟨rfl, Number.noConfusion, Binary64.finite_of_ofInt? h⟩

theorem isNaN_of_toBinary64? (h : n.toBinary64? = some x) : x.isNaN = n.isNaN := by
  rcases toBinary64?_cases h with rfl | ⟨hnumber, -, negative, units, representable, rfl⟩
  · rfl
  · rw [hnumber]
    rfl

theorem eq_infinite_iff_of_toBinary64? (h : n.toBinary64? = some x) :
    x = .infinite false ↔ n = .real (.infinite false) := by
  rcases toBinary64?_cases h with rfl | ⟨-, hinfinite, negative, units, representable, rfl⟩
  · rw [Number.real.injEq]
  · exact iff_of_false Binary64.noConfusion hinfinite

end Number

/-! ## Counters -/

/-- **Counter values are checked in range.** -/
theorem CounterValue.checkedInRange_ofDatum (n : Number) :
    CheckedInRange (ofDatum (.number n)) n.InRange (Number.le (.whole 0) n = true) := by
  rw [← Number.isSome_toBinary64?_iff, Number.zero_le_iff]
  refine .of_holdsUp (fun hrange => ?_) fun hrange => ?_
  · rw [ofDatum, dif_pos hrange]
    by_cases hnumber : n.isNaN = false
    · by_cases hnegative : n.isNegative = false
      · rw [dif_pos hnumber, dif_pos hnegative]
        exact .accepted ⟨hnumber, hnegative⟩
      · rw [dif_pos hnumber, dif_neg hnegative]
        exact .refused rfl fun h => hnegative h.2
    · rw [dif_neg hnumber]
      exact .refused rfl fun h => hnumber h.1
  · rw [ofDatum, dif_neg hrange]

theorem DataPoint.make_counter (n : Number) :
    make .counter [.value (.number n)] = CounterValue.ofDatum (.number n) >>= fun value =>
      .ok (ofParts .empty .zero .zero (.counter value none)) := by
  have hzero (moment : Moment) : Amount.ofTimestamp moment (.whole 0) = .ok .zero :=
    Amount.ofTimestamp_number moment .zero
  have hfields : Measurement.ofFields .counter [.value (.number n)] =
      CounterValue.ofDatum (.number n) >>= fun value => .ok (.counter value none) := rfl
  have hfind : [Field.value (.number n)].find? (fun f => !PointClass.counter.accepts f.name) = none := rfl
  have hcreated : createdIn [.value (.number n)] = .whole 0 := rfl
  have hscrape : scrapeIn [.value (.number n)] = .whole 0 := rfl
  rw [make, hfind, hfields, hcreated, hscrape, hzero, hzero]
  cases CounterValue.ofDatum (.number n) <;> rfl

/-! ## Quantiles -/

namespace Quantile

variable {n : Number} {value : Datum}

theorem make_of_inRange (h : n.InRange) :
    make (some (.number n)) (some value) =
      if hshare : n.isShare = true then .ok ⟨n, value, hshare⟩ else .error (.point (.illegalQuantile n)) := by
  have hsome : ¬n.toBinary64?.isNone = true := by
    rw [Option.isNone_iff_eq_none, Number.toBinary64?_eq_none_iff]
    exact not_not.2 h
  rw [make, if_neg hsome]

theorem make_of_not_inRange (h : ¬n.InRange) :
    make (some (.number n)) (some value) = .error (.argument .tooLarge) := by
  rw [← Number.toBinary64?_eq_none_iff] at h
  rw [make, if_pos (Option.isNone_iff_eq_none.2 h)]

/-- **Shares of quantiles are checked in range.** -/
theorem checkedInRange_make (n : Number) (value : Datum) :
    CheckedInRange (make (some (.number n)) (some value)) n.InRange (n.isShare = true) := by
  refine .of_holdsUp (fun hrange => ?_) make_of_not_inRange
  rw [make_of_inRange hrange]
  by_cases hshare : n.isShare = true
  · rw [dif_pos hshare]
    exact .accepted hshare
  · rw [dif_neg hshare]
    exact .refused rfl hshare

end Quantile

/-! ## Buckets -/

namespace Buckets

variable {bounds counts : List Number} {e : Error}

/-- **Bounds and counts that make buckets**: there is one count for each bound, no count is negative, and the bounds are
different as binary64 numbers, among them the positive infinity. -/
structure Acceptable (bounds counts : List Number) : Prop where
  lengths : bounds.length = counts.length
  numbers : ∀ n ∈ bounds, n.isNaN = false
  different : bounds.Pairwise fun m n => ∀ x ∈ m.toBinary64?, ∀ y ∈ n.toBinary64?, (Number.real x).eq (.real y) = false
  top : .real (.infinite false) ∈ bounds
  notNegative : ∀ n ∈ counts, n.isNegative = false

theorem readBound_number_eq_ok_iff {n : Number} {x : Binary64} :
    readBound (.number n) = .ok x ↔ n.toBinary64? = some x := by
  unfold readBound
  cases h : n.toBinary64? <;> simp [h]

theorem eq_of_readBound_number_eq_error {n : Number} (h : readBound (.number n) = .error e) :
    e = .argument .tooLarge := by
  unfold readBound at h
  cases hx : n.toBinary64? with
  | some x =>
    simp only [hx] at h
    cases h
  | none =>
    simp only [hx] at h
    cases h
    rfl

theorem exists_readBounds_of_inRange (h : ∀ n ∈ bounds, n.InRange) :
    ∃ xs, readBounds (bounds.map .number) = .ok xs ∧
      List.Forall₂ (fun n x => n.toBinary64? = some x) bounds xs := by
  obtain ⟨xs, hxs⟩ := exists_forall₂ fun n hn => Number.exists_toBinary64?_iff.2 (h n hn)
  refine ⟨xs, ?_, hxs⟩
  rw [readBounds_eq_mapM, mapM_eq_ok_iff, List.forall₂_map_left_iff]
  exact hxs.imp fun n x => readBound_number_eq_ok_iff.2

/-- Bounds of which one is out of range are too large. -/
theorem readBounds_of_not_inRange (h : ¬∀ n ∈ bounds, n.InRange) :
    readBounds (bounds.map .number) = .error (.argument .tooLarge) := by
  cases hread : readBounds (bounds.map .number) with
  | error e =>
    rw [readBounds_eq_mapM] at hread
    obtain ⟨d, hd, he⟩ := exists_of_mapM_eq_error hread
    obtain ⟨n, -, rfl⟩ := List.mem_map.1 hd
    rw [eq_of_readBound_number_eq_error he]
  | ok xs =>
    rw [readBounds_eq_mapM, mapM_eq_ok_iff, List.forall₂_map_left_iff] at hread
    refine absurd (fun n hn => ?_) h
    obtain ⟨x, -, hx⟩ := exists_of_mem_left hread hn
    exact Number.exists_toBinary64?_iff.1 ⟨x, readBound_number_eq_ok_iff.1 hx⟩

/-- What is asked of bounds that have been read is what is asked of the given ones. -/
theorem acceptable_iff {xs : List Binary64} (h : List.Forall₂ (fun n x => n.toBinary64? = some x) bounds xs) :
    Acceptable bounds counts ↔ xs.length = (counts.map Datum.number).length ∧ xs ≠ [] ∧
      (∀ x ∈ xs, x.isNaN = false) ∧ (∀ c ∈ counts.map Datum.number, ∃ a, readCount c = .ok a) ∧
        (xs.Pairwise fun x y => (Number.real x).eq (.real y) = false) ∧ .infinite false ∈ xs := by
  have hnumbers : (∀ n ∈ bounds, n.isNaN = false) ↔ ∀ x ∈ xs, x.isNaN = false := by
    constructor
    · intro hall x hx
      obtain ⟨n, hn, hnx⟩ := exists_of_mem_right h hx
      rw [Number.isNaN_of_toBinary64? hnx, hall n hn]
    · intro hall n hn
      obtain ⟨x, hx, hnx⟩ := exists_of_mem_left h hn
      rw [← Number.isNaN_of_toBinary64? hnx, hall x hx]
  have hdifferent : (bounds.Pairwise fun m n => ∀ x ∈ m.toBinary64?, ∀ y ∈ n.toBinary64?,
      (Number.real x).eq (.real y) = false) ↔ xs.Pairwise fun x y => (Number.real x).eq (.real y) = false := by
    refine pairwise_iff_of_forall₂ h fun {m n x y} hx hy => ?_
    rw [hx, hy]
    simp
  have htop : .real (.infinite false) ∈ bounds ↔ Binary64.infinite false ∈ xs := by
    constructor
    · intro hn
      obtain ⟨x, hx, hnx⟩ := exists_of_mem_left h hn
      rwa [(Number.eq_infinite_iff_of_toBinary64? hnx).2 rfl] at hx
    · intro hx
      obtain ⟨n, hn, hnx⟩ := exists_of_mem_right h hx
      rwa [(Number.eq_infinite_iff_of_toBinary64? hnx).1 rfl] at hn
  simp only [List.forall_mem_map, exists_readCount_number_iff, List.length_map, ← h.length_eq, ← hnumbers, ← hdifferent,
    ← htop]
  constructor
  · rintro ⟨hlengths, hnan, hpairs, hmem, hcounts⟩
    refine ⟨hlengths, ?_, hnan, hcounts, hpairs, hmem⟩
    rintro rfl
    exact List.not_mem_nil (htop.1 hmem)
  · rintro ⟨hlengths, -, hnan, hcounts, hpairs, hmem⟩
    exact ⟨hlengths, hnan, hpairs, hmem, hcounts⟩

/-- **Bounds of buckets are checked in range.** -/
theorem checkedInRange_make (bounds counts : List Number) :
    CheckedInRange (make (bounds.map .number) (counts.map .number)) (∀ n ∈ bounds, n.InRange)
      (Acceptable bounds counts) := by
  refine .of_holdsUp (fun hrange => ?_) fun hrange => ?_
  · obtain ⟨xs, hread, hxs⟩ := exists_readBounds_of_inRange hrange
    refine ⟨?_, fun e he => category_of_make_eq_error hread he⟩
    rw [exists_make_iff hread, acceptable_iff hxs]
  · rw [make, readBounds_of_not_inRange hrange]
    rfl

end Buckets

/-! ## All magnitudes -/

namespace Number

/-- **Numbers are checked in range.** A counter shows exactly the numbers from zero on, the share of a quantile is exactly
one between zero and one, and buckets are made exactly of acceptable bounds and counts, all else being invalid, if and
only if the value, the share and all bounds are in range. Beyond the range, they are too large to be converted. -/
theorem checks_hold_up_in_range (n : Number) (value : Datum) (bounds counts : List Number) :
    CheckedInRange (DataPoint.make .counter [.value (.number n)]) n.InRange (le (.whole 0) n = true) ∧
      CheckedInRange (Quantile.make (some (.number n)) (some value)) n.InRange (n.isShare = true) ∧
        CheckedInRange (Buckets.make (bounds.map .number) (counts.map .number)) (∀ b ∈ bounds, b.InRange)
          (Buckets.Acceptable bounds counts) := by
  refine ⟨?_, Quantile.checkedInRange_make n value, Buckets.checkedInRange_make bounds counts⟩
  rw [DataPoint.make_counter]
  exact (CounterValue.checkedInRange_ofDatum n).bind _

def huge : Int :=
  10 ^ (309 : Nat)

/-- **Numbers of which no check holds up.** A counter does not show a huge number, though it is not negative; its negative
is not found to be invalid, and neither is a huge share or a huge bound. -/
theorem huge_not_checked :
    le (.whole 0) (.whole huge) = true ∧
      DataPoint.make .counter [.value (.whole huge)] = .error (.argument .tooLarge) ∧
      DataPoint.make .counter [.value (.whole (-huge))] = .error (.argument .tooLarge) ∧
      Quantile.make (some (.whole huge)) (some (.whole 1)) = .error (.argument .tooLarge) ∧
      Buckets.make [.whole huge, .number (.real (.infinite false))] [.whole 1, .whole 1] =
        .error (.argument .tooLarge) ∧
      (Error.argument .tooLarge).category ≠ .invalid := by
  have hhuge : ¬(whole huge).InRange := by decide +kernel
  have hnegative : ¬(whole (-huge)).InRange := by decide +kernel
  refine ⟨by decide +kernel, ?_, ?_, (Quantile.checkedInRange_make _ _).tooLarge hhuge, ?_, by decide⟩
  · exact (DataPoint.make_counter _).trans (congrArg (· >>= _) ((CounterValue.checkedInRange_ofDatum _).tooLarge hhuge))
  · exact (DataPoint.make_counter _).trans (congrArg (· >>= _) ((CounterValue.checkedInRange_ofDatum _).tooLarge hnegative))
  · exact (Buckets.checkedInRange_make [.whole huge, .real (.infinite false)] [.whole 1, .whole 1]).tooLarge
      fun hall => hhuge (hall _ List.mem_cons_self)

end Number

end Telemetry
