import Telemetry.Proofs.Exporter.Serving
import Telemetry.Proofs.Family.Shown

/-!
# Which accepted collections can be served

The scrape exporter looks at names and labels when it accepts a collection, and converts the points when it is
scraped. A collection that it accepts can be served if the timestamps that scrapes see are in the range of
binary64 numbers, and the counts of all buckets can be added up. Timestamps of points are not looked at before,
so that an exporter that could be scraped may accept a collection with which it cannot.

## Main results

* `ScrapeExporter.exists_families_of_accept_iff`: which accepted collections can be served
* `ScrapeExporter.accepts_and_breaks`: a collection that is accepted and cannot be served
-/

namespace Telemetry

-- Powers are those of whole numbers in the core library, whatever else is in scope.
attribute [local instance (2000)] instPowNat

namespace ScrapeExporter

variable {e e' : ScrapeExporter} {lead : String} {c d : Collection}

/-- **Which accepted collections can be served**: those whose shown timestamps are in range, and whose counts of
buckets can be added up. -/
theorem exists_families_of_accept_iff (h : e.accept c = .ok e') :
    (∃ families, e'.families = .ok families) ↔
      ∀ s ∈ c.snapshots, ∀ p ∈ s.points,
        (∀ t ∈ p.shownTimestamps, t.number.InRange) ∧ p.measurement.CountsAdd := by
  obtain ⟨d, hadmitted, rfl⟩ := accept_eq_ok_iff.1 h
  obtain ⟨hrenamed, -⟩ := admitted?_eq_some_iff.1 hadmitted
  show (∃ families, d.families = .ok families) ↔ _
  simp only [Collection.exists_families_iff, ← DataPoint.convertible_iff]
  exact forall_points_renamed_iff (P := fun points => ∀ p ∈ points, p.Convertible) hrenamed

end ScrapeExporter

/-! ### A collection that can be served and one that cannot -/

/-- A gauge that was seen at a time, in milliseconds. -/
def Snapshot.seenAt (millis : Nat) : Snapshot where
  kind := .gauge
  metadata := ⟨"seen", none, none, by decide⟩
  points := [.ofParts .empty .zero (.ofNat millis) (.gauge (.whole 1) none)]
  unitAllowed _ := rfl
  classed p hp := by
    rw [List.mem_singleton.1 hp]
    rfl
  ordered := chained_singleton _

def Collection.seenAt (millis : Nat) : Collection where
  snapshots := [.seenAt millis]
  increasing := List.pairwise_singleton _ _

namespace ScrapeExporter

theorem accept_seenAt (millis : Nat) :
    (new "").accept (.seenAt millis) = .ok ⟨"", .seenAt millis, true⟩ := by
  refine accept_eq_ok_iff.2 ⟨.seenAt millis, admitted?_eq_some_iff.2 ⟨rfl, fun s hs => ?_⟩, rfl⟩
  rw [List.mem_singleton.1 hs]
  rfl

theorem shown_seenAt {millis : Nat} {P : Number → Prop} :
    (∀ s ∈ (Collection.seenAt millis).snapshots, ∀ p ∈ s.points,
      (∀ t ∈ p.shownTimestamps, P t.number) ∧ p.measurement.CountsAdd) ↔ P (.whole millis) := by
  simp [Collection.seenAt, Snapshot.seenAt, DataPoint.shownTimestamps, DataPoint.ofParts,
    Measurement.shownTimestamps, Measurement.CountsAdd, Amount.ofNat]

/-- What was seen a second after the epoch can be served. -/
theorem serves_seenAt :
    ∃ e, (new "").accept (.seenAt 1000) = .ok e ∧ ∃ families, e.families = .ok families := by
  refine ⟨_, accept_seenAt 1000, (exists_families_of_accept_iff (accept_seenAt 1000)).2 ?_⟩
  exact shown_seenAt.2 (Number.inRange_of_le (by decide))

/-- A time out of range is accepted, and cannot be shown. -/
theorem breaks_seenAt {millis : Nat} (h : ¬(Number.whole millis).InRange) :
    ∃ e, (new "").accept (.seenAt millis) = .ok e ∧ ¬∃ families, e.families = .ok families := by
  refine ⟨_, accept_seenAt millis, ?_⟩
  show ¬∃ families, (Collection.seenAt millis).families = .ok families
  simp only [Collection.exists_families_iff, DataPoint.convertible_iff]
  rw [shown_seenAt]
  exact h

/-- **An exporter that can be scraped may accept a collection with which it cannot**: the time at which the gauge
was seen is too large. -/
theorem accepts_and_breaks :
    (new "").families = .ok [] ∧
      ∃ e, (new "").accept (.seenAt (10 ^ (309 : Nat))) = .ok e ∧ ¬∃ families, e.families = .ok families :=
  ⟨rfl, breaks_seenAt (by decide +kernel)⟩

end ScrapeExporter

end Telemetry
