import Telemetry.Proofs.Family.Conversion
import Telemetry.Proofs.Number.Whole

/-!
# Timestamps that scrapes see

A point has samples if the timestamps that its samples show are in the range of binary64 numbers, and the counts
of its buckets can be added up. Whole counts always can, whatever their size.

## Main definitions

* `DataPoint.shownTimestamps`: the timestamps of a point that scrapes see
* `Measurement.CountsAdd`: the counts of buckets can be added up

## Main results

* `Amount.fits_iff`: which timestamps can be shown
* `Measurement.countsAdd_of_whole`: whole counts can be added up
* `DataPoint.convertible_iff`, `Family.exists_ofSnapshot_iff_of_shown`, `Collection.exists_families_iff`: which points
  have samples, and which snapshots and collections have families
-/

namespace Telemetry

/-! ## Timestamps and counts -/

/-- **A timestamp can be shown if it is in range.** -/
theorem Amount.fits_iff (a : Amount) : a.Fits ↔ a.number.InRange := by
  rw [Fits, Number.isSome_toBinary64?_iff]
  by_cases hpresent : a.isPresent = true
  · exact ⟨fun h => h hpresent, fun h _ => h⟩
  · refine ⟨fun _ => ?_, fun h _ => h⟩
    exact Number.inRange_of_isTruthy_eq_false (Bool.eq_false_iff.2 hpresent)

namespace Buckets

/-- Whole numbers can always be added up, whatever their size. -/
theorem isSome_total?_of_whole {total : Number} {ns : List Number} (htotal : total.whole?.isSome = true)
    (hns : ∀ n ∈ ns, n.whole?.isSome = true) : (total? total ns).isSome = true := by
  induction ns generalizing total with
  | nil => rfl
  | cons n rest ih =>
    obtain ⟨a, ha⟩ := Option.isSome_iff_exists.1 htotal
    obtain ⟨b, hb⟩ := Option.isSome_iff_exists.1 (hns n List.mem_cons_self)
    -- The sum of two whole numbers is whole again, and is never converted.
    have hadd : total.add? n = some (.whole (a + b)) := by rw [Number.add?, ha, hb]
    rw [total?, hadd]
    exact ih rfl fun n hn => hns n (List.mem_cons_of_mem _ hn)

end Buckets

namespace Measurement

/-- The timestamps of a measurement that scrapes see, among them the time of its creation. -/
def shownTimestamps (created : Amount) : Measurement → List Amount
  | .base | .info | .stateSet _ => []
  | .counter _ exemplar => created :: exemplar.toList.map (·.timestamp)
  | .gauge _ exemplar | .unknown _ exemplar => exemplar.toList.map (·.timestamp)
  | .histogram .. | .summary .. => [created]

/-- **The counts of buckets can be added up.** -/
def CountsAdd : Measurement → Prop
  | .histogram buckets _ _ => buckets.count?.isSome = true
  | _ => True

/-- Counts that are whole numbers can be added up. -/
theorem countsAdd_of_whole {buckets : Buckets} {sum : Datum} {exemplars : List (Option Exemplar)}
    (h : ∀ n ∈ buckets.counts, n.whole?.isSome = true) :
    (histogram buckets sum exemplars).CountsAdd :=
  Buckets.isSome_total?_of_whole rfl h

theorem convertible_iff {created : Amount} {m : Measurement} :
    m.Convertible created ↔ (∀ t ∈ m.shownTimestamps created, t.number.InRange) ∧ m.CountsAdd := by
  -- Class by class, the timestamps that have to fit are those that are shown.
  cases m <;> simp only [Convertible, shownTimestamps, CountsAdd, Amount.fits_iff]
  case base | info | stateSet => simp
  case counter value exemplar => cases exemplar <;> simp [and_comm]
  case gauge value exemplar | unknown value exemplar => cases exemplar <;> simp
  case histogram buckets sum exemplars => simp [and_comm]
  case summary count sum quantiles exemplars => simp

end Measurement

/-! ## Points and collections -/

namespace DataPoint

/-- **The timestamps of a point that scrapes see.** -/
def shownTimestamps (p : DataPoint) : List Amount :=
  p.scrape :: p.measurement.shownTimestamps p.created

/-- **Which points have samples.** -/
theorem convertible_iff {p : DataPoint} :
    p.Convertible ↔ (∀ t ∈ p.shownTimestamps, t.number.InRange) ∧ p.measurement.CountsAdd := by
  rw [Convertible, Measurement.convertible_iff, Amount.fits_iff, shownTimestamps, List.forall_mem_cons,
    and_assoc]

end DataPoint

/-- **Which snapshots have a family**, if all timestamps that scrapes see are in range: those whose counts can be added
up. -/
theorem Family.exists_ofSnapshot_iff_of_shown {s : Snapshot}
    (hshown : ∀ p ∈ s.points, ∀ t ∈ p.shownTimestamps, t.number.InRange) :
    (∃ f, ofSnapshot s = .ok f) ↔ ∀ p ∈ s.points, p.measurement.CountsAdd := by
  rw [exists_ofSnapshot_iff]
  refine forall₂_congr fun p hp => ?_
  rw [DataPoint.convertible_iff]
  exact and_iff_right (hshown p hp)

namespace Collection

/-- **Which collections have families**: those whose points all have samples. -/
theorem exists_families_iff {c : Collection} :
    (∃ families, c.families = .ok families) ↔ ∀ s ∈ c.snapshots, ∀ p ∈ s.points, p.Convertible := by
  simp only [families_eq_ok_iff, ← Family.exists_ofSnapshot_iff]
  constructor
  · rintro ⟨families, hfamilies⟩ s hs
    obtain ⟨f, -, hf⟩ := exists_of_mem_left hfamilies hs
    exact ⟨f, hf⟩
  · exact exists_forall₂

end Collection

end Telemetry
