import Telemetry.Proofs.Family.Series
import Telemetry.Proofs.Family.Shown

/-!
# Cumulative histograms

A histogram is exposed with one sample for each bound, which counts everything up to the bound. If the counts of the
buckets are whole numbers, the counts up to the bounds are so as well; they do not decrease, the steps between them are
the counts of the buckets, and the last one, up to the positive infinity, is the count of everything.

## Main definitions

* `HistogramBlock`: the samples of a histogram
* `HistogramBlock.IsCumulative`: samples that show buckets as a cumulative histogram

## Main results

* `Snapshot.exposes_cumulative_histograms`: histograms are exposed as cumulative ones, point by point
-/

namespace Telemetry

/-! ## Samples of histograms -/

/-- **The samples of a histogram**: one for each bound, the count of everything, and the sum and the creation time if
there are some. -/
structure HistogramBlock where
  buckets : List Sample
  count : Sample
  sum : Option Sample
  created : Option Sample

def HistogramBlock.samples (b : HistogramBlock) : List Sample :=
  b.buckets ++ [b.count] ++ b.sum.toList ++ b.created.toList

def boundTexts (samples : List Sample) : List (Option String) :=
  samples.map (·.labels.lookup "le")

/-- **Samples that show buckets cumulatively.** There is one sample for each bound, in increasing order, with the labels
of the point apart from the bound. Bounds are told apart by their texts, and the last one is the positive infinity.
The counts up to the bounds are not negative and do not decrease, and the steps between them are the counts of the
buckets. -/
structure ShowsBuckets (family : String) (p : DataPoint) (buckets : Buckets) (samples : List Sample) : Prop where
  names : ∀ a ∈ samples, a.name = family ++ "_bucket"
  labels : ∀ a ∈ samples, ∀ name, name ≠ "le" → a.labels.lookup name = p.exposed.lookup name
  texts : boundTexts samples = (buckets.bounds.map Binary64.boundText).map some
  increasing : buckets.bounds.Pairwise fun x y => (Number.real x).lt (.real y) = true
  apart : (boundTexts samples).Nodup
  endsOpen : (boundTexts samples).getLast? = some (some "+Inf")
  totals : ∃ totals : List Int, samples.map Sample.value = totals.map Datum.whole ∧ (∀ total ∈ totals, 0 ≤ total) ∧
    totals.Pairwise (· ≤ ·) ∧ (steps 0 totals).map some = buckets.counts.map Number.whole?

/-- **A cumulative histogram** that shows the buckets and the sum of a point. The count of everything is the one up to
the last bound. A sum and a creation time are shown exactly if the point has them. -/
structure HistogramBlock.IsCumulative (family : String) (p : DataPoint) (buckets : Buckets) (sum : Datum)
    (b : HistogramBlock) : Prop where
  shows : ShowsBuckets family p buckets b.buckets
  countName : b.count.name = family ++ "_count"
  countValue : b.buckets.getLast?.map Sample.value = some b.count.value
  hasSum : b.sum.isSome = true ↔ sum ≠ .null
  sumShown : ∀ a ∈ b.sum, a.name = family ++ "_sum" ∧ a.value = sum
  hasCreated : b.created.isSome = p.hasCreated
  createdName : ∀ a ∈ b.created, a.name = family ++ "_created"
  labels : ∀ a ∈ b.count :: (b.sum.toList ++ b.created.toList), a.labels = p.exposed

namespace DataPoint

variable {p : DataPoint} {family : String} {timestamp : Option Binary64}

/-- The sample of a sum is there exactly if the sum is. -/
theorem exists_sumSamples_eq (p : DataPoint) (timestamp : Option Binary64) (family : String) (sum : Datum) :
    ∃ a : Option Sample, p.sumSamples timestamp family sum = a.toList ∧ (a.isSome = true ↔ sum ≠ .null) ∧
      ∀ b ∈ a, b.name = family ++ "_sum" ∧ b.value = sum ∧ b.labels = p.exposed := by
  cases sum
  case null => exact ⟨none, rfl, by simp, by simp⟩
  all_goals
    refine ⟨some _, rfl, by simp, fun b hb => ?_⟩
    obtain rfl := Option.some.inj hb
    exact ⟨rfl, rfl, rfl⟩

/-- The sample of a creation time is there exactly if the time is. -/
theorem exists_createdSamples_eq {samples : List Sample} (h : p.createdSamples timestamp family = .ok samples) :
    ∃ a : Option Sample, samples = a.toList ∧ a.isSome = p.hasCreated ∧
      ∀ b ∈ a, b.name = family ++ "_created" ∧ b.labels = p.exposed := by
  obtain ⟨created, hcreated, h⟩ := bind_eq_ok_iff.1 h
  have hpresent : created.isSome = p.hasCreated := Amount.isSome_of_seconds?_eq_ok hcreated
  cases created with
  | none =>
    cases h
    exact ⟨none, rfl, hpresent, by simp⟩
  | some t =>
    cases h
    refine ⟨some _, rfl, hpresent, fun b hb => ?_⟩
    obtain rfl := Option.some.inj hb
    exact ⟨rfl, rfl⟩

theorem map_value_bucketSamples {bounds : List Binary64} {totals : List Number}
    (hlength : bounds.length = totals.length) :
    (bounds.zipWith (p.bucketSample timestamp family) totals).map Sample.value = totals.map Datum.number := by
  have hvalue (bound : Binary64) (total : Number) :
      (p.bucketSample timestamp family bound total).value = .number total := rfl
  exact map_zipWith_right hvalue hlength

theorem boundTexts_bucketSamples (p : DataPoint) (timestamp : Option Binary64) (family : String)
    {bounds : List Binary64} {totals : List Number}
    (hlength : bounds.length = totals.length) :
    boundTexts (bounds.zipWith (p.bucketSample timestamp family) totals) =
      (bounds.map Binary64.boundText).map some := by
  rw [List.map_map]
  exact map_zipWith_left (fun bound _ => lookup_assign_self "le" bound.boundText p.exposed) hlength

/-- **Whole counts are shown cumulatively.** -/
theorem showsBuckets {buckets : Buckets} {totals : List Int}
    (htotals : buckets.cumulative? = some (totals.map Number.whole))
    (hsteps : (steps 0 totals).map some = buckets.counts.map Number.whole?) :
    ShowsBuckets family p buckets
      (buckets.bounds.zipWith (p.bucketSample timestamp family) (totals.map Number.whole)) := by
  have hlength := (Buckets.length_of_cumulative? htotals).symm
  have htexts := p.boundTexts_bucketSamples timestamp family hlength
  obtain ⟨hnonneg, hordered⟩ := List.pairwise_cons.1 (pairwise_of_steps (Buckets.nonneg_of_steps hsteps))
  constructor
  case names =>
    intro a ha
    obtain ⟨bound, total, rfl⟩ := exists_of_mem_zipWith ha
    rfl
  case labels =>
    intro a ha name hname
    obtain ⟨bound, total, rfl⟩ := exists_of_mem_zipWith ha
    exact lookup_assign_of_ne hname bound.boundText p.exposed
  case texts => exact htexts
  case increasing => exact buckets.pairwise_bounds
  case apart =>
    rw [htexts]
    exact buckets.nodup_boundTexts.map fun _ _ => Option.some.inj
  case endsOpen =>
    rw [htexts, List.getLast?_map, List.getLast?_map, buckets.getLast?_bounds]
    rfl
  case totals =>
    refine ⟨totals, ?_, hnonneg, hordered, hsteps⟩
    rw [map_value_bucketSamples hlength, List.map_map]
    rfl

/-- **A histogram with whole counts is exposed as a cumulative one.** -/
theorem exists_cumulative_block {buckets : Buckets} {sum : Datum} {exemplars : List (Option Exemplar)}
    (hmeasurement : p.measurement = .histogram buckets sum exemplars)
    (hwhole : ∀ n ∈ buckets.counts, n.whole?.isSome = true) {samples : List Sample}
    (h : p.samples family = .ok samples) :
    ∃ b : HistogramBlock, samples = b.samples ∧ b.IsCumulative family p buckets sum := by
  unfold DataPoint.samples at h
  obtain ⟨timestamp, -, h⟩ := bind_eq_ok_iff.1 h
  rw [hmeasurement] at h
  obtain ⟨counts, hcounts, h⟩ := bind_eq_ok_iff.1 h
  obtain ⟨createdSamples, hcreated, h⟩ := bind_eq_ok_iff.1 h
  cases h
  obtain ⟨shown, count, hshown, hcount, rfl⟩ := bucketSamples_eq_ok_iff.1 hcounts
  obtain ⟨totals, htotals, hsteps⟩ := buckets.exists_cumulative?_of_whole hwhole
  obtain rfl : totals.map Number.whole = shown := Option.some.inj (htotals.symm.trans hshown)
  obtain ⟨sumSample, hsum, hhasSum, hsumShown⟩ := p.exists_sumSamples_eq timestamp family sum
  obtain ⟨createdSample, rfl, hhasCreated, hcreatedShown⟩ := exists_createdSamples_eq hcreated
  refine ⟨⟨buckets.bounds.zipWith (p.bucketSample timestamp family) (totals.map Number.whole),
    p.sample timestamp (family ++ "_count") [] (.number count), sumSample, createdSample⟩, ?_, ?_⟩
  · rw [hsum]
    rfl
  · constructor
    case shows => exact showsBuckets htotals hsteps
    case countName => rfl
    case countValue =>
      have hlength := (Buckets.length_of_cumulative? htotals).symm
      rw [← List.getLast?_map, map_value_bucketSamples hlength, List.getLast?_map,
        ← Buckets.count?_eq_getLast? htotals, hcount]
      rfl
    case hasSum => exact hhasSum
    case sumShown => exact fun a ha => ⟨(hsumShown a ha).1, (hsumShown a ha).2.1⟩
    case hasCreated => exact hhasCreated
    case createdName => exact fun a ha => (hcreatedShown a ha).1
    case labels =>
      rw [List.forall_mem_cons, List.forall_mem_append]
      simp only [Option.mem_toList]
      exact ⟨rfl, fun a ha => (hsumShown a ha).2.2, fun a ha => (hcreatedShown a ha).2⟩

end DataPoint

/-! ## Histograms -/

/-- **The counts of buckets are whole numbers**, whichever sort they have. -/
def Measurement.CountsWhole : Measurement → Prop
  | .histogram buckets _ _ => ∀ n ∈ buckets.counts, n.whole?.isSome = true
  | _ => True

instance : (m : Measurement) → Decidable m.CountsWhole
  | .histogram buckets _ _ => inferInstanceAs (Decidable (∀ n ∈ buckets.counts, n.whole?.isSome = true))
  | .base | .info | .counter .. | .gauge .. | .unknown .. | .summary .. | .stateSet _ =>
    inferInstanceAs (Decidable True)

theorem Measurement.CountsWhole.countsAdd {m : Measurement} (h : m.CountsWhole) : m.CountsAdd := by
  cases m with
  | histogram buckets sum exemplars => exact countsAdd_of_whole h
  | base | info | counter | gauge | unknown | summary | stateSet => trivial

namespace Snapshot

theorem exists_measurement_of_histogram {s : Snapshot} (hkind : s.kind = .histogram) {p : DataPoint}
    (hp : p ∈ s.points) : ∃ buckets sum exemplars, p.measurement = .histogram buckets sum exemplars := by
  have hclass := s.classed p hp
  rw [hkind, DataPoint.pointClass] at hclass
  cases hmeasurement : p.measurement <;> rw [hmeasurement] at hclass
  case histogram buckets sum exemplars => exact ⟨buckets, sum, exemplars, rfl⟩
  all_goals cases hclass

/-- **Histograms with whole counts are exposed as cumulative ones**, if all timestamps that scrapes see are in range:
there is a family, and its samples are one cumulative histogram for each point, in order. -/
theorem exposes_cumulative_histograms {s : Snapshot} (hkind : s.kind = .histogram)
    (hwhole : ∀ p ∈ s.points, p.measurement.CountsWhole)
    (hshown : ∀ p ∈ s.points, ∀ t ∈ p.shownTimestamps, t.number.InRange) :
    ∃ f blocks, Family.ofSnapshot s = .ok f ∧ f.samples = blocks.flatMap HistogramBlock.samples ∧
      List.Forall₂ (fun p block => ∃ buckets sum exemplars, p.measurement = .histogram buckets sum exemplars ∧
        HistogramBlock.IsCumulative f.name p buckets sum block) s.points blocks := by
  obtain ⟨f, hf⟩ := (Family.exists_ofSnapshot_iff_of_shown hshown).2 fun p hp => (hwhole p hp).countsAdd
  obtain ⟨hblocks, hsamples⟩ := Family.samples_eq_flatMap hf
  have hcumulative : ∀ p ∈ s.points, ∃ b : HistogramBlock, p.block f.name = b.samples ∧
      ∃ buckets sum exemplars, p.measurement = .histogram buckets sum exemplars ∧
        b.IsCumulative f.name p buckets sum := by
    intro p hp
    obtain ⟨buckets, sum, exemplars, hmeasurement⟩ := exists_measurement_of_histogram hkind hp
    have hcounts := hwhole p hp
    rw [hmeasurement] at hcounts
    obtain ⟨b, hb, hshows⟩ := DataPoint.exists_cumulative_block hmeasurement hcounts (hblocks p hp)
    exact ⟨b, hb, buckets, sum, exemplars, hmeasurement, hshows⟩
  obtain ⟨blocks, hall⟩ := exists_forall₂ hcumulative
  refine ⟨f, blocks, hf, ?_, hall.imp fun _ _ h => h.2⟩
  have hmap : s.points.map (DataPoint.block f.name) = blocks.map HistogramBlock.samples := by
    rw [← List.forall₂_eq_eq_eq, List.forall₂_map_left_iff, List.forall₂_map_right_iff]
    exact hall.imp fun _ _ h => h.1
  rw [hsamples, List.flatMap_def, List.flatMap_def, hmap]

/-- The buckets of durations, with two long ones that are close to each other. -/
def longBuckets : Buckets where
  toList := [
    ⟨.ofDecimal false 1 0, .ofNat 2⟩,
    ⟨.ofDecimal false 1 9, .ofNat 0⟩,
    ⟨.ofDecimal false 1000000001 0, .ofNat 3⟩,
    ⟨.infinite false, .ofNat 1⟩]
  bounded := by decide +kernel
  increasing := by decide +kernel
  endsOpen := rfl

/-- Durations without a sum, and when they were counted from. -/
def durations : Snapshot :=
  latency [.ofParts .empty (.ofNat 1000) .zero (.histogram longBuckets .null [])] (by decide) (chained_singleton _)

/-- Close bounds are told apart by their texts, and there is a creation time, but no sum. -/
theorem exposes_durations :
    durations.kind = .histogram ∧ (∀ p ∈ durations.points, p.measurement.CountsWhole) ∧
      (∀ p ∈ durations.points, ∀ t ∈ p.shownTimestamps, t.number.InRange) ∧
      ∃ f, ∃ block : HistogramBlock, Family.ofSnapshot durations = .ok f ∧ f.samples = block.samples ∧
        boundTexts block.buckets = [some "1.0", some "1e+09", some "1.000000001e+09", some "+Inf"] ∧
        block.sum.isSome = false ∧ block.created.isSome = true := by
  have hwhole : ∀ p ∈ durations.points, p.measurement.CountsWhole := by decide +kernel
  have hshown : ∀ p ∈ durations.points, ∀ t ∈ p.shownTimestamps, t.number.InRange := by decide +kernel
  obtain ⟨f, blocks, hf, hsamples, hblocks⟩ := exposes_cumulative_histograms rfl hwhole hshown
  obtain ⟨block, rest, ⟨buckets, sum, exemplars, hmeasurement, hcumulative⟩, hrest, rfl⟩ :=
    List.forall₂_cons_left_iff.1 hblocks
  cases hrest
  cases hmeasurement
  rw [List.flatMap_singleton] at hsamples
  refine ⟨rfl, hwhole, hshown, f, block, hf, hsamples, ?_, ?_, ?_⟩
  · rw [hcumulative.shows.texts]
    decide +kernel
  · rw [Bool.eq_false_iff]
    exact fun hsome => hcumulative.hasSum.1 hsome rfl
  · rw [hcumulative.hasCreated]
    decide +kernel

end Snapshot

end Telemetry
