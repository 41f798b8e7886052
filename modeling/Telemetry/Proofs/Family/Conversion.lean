import Telemetry.Family
import Telemetry.Proofs.Collection.Change

/-!
# Which snapshots have a family

The family of a snapshot exists if every timestamp that scrapes see fits into binary64 numbers and the counts
of all buckets can be added up. Nothing else can go wrong: shares of quantiles always have a text.

## Main definitions

* `Amount.Fits`: timestamps that are missing or within the range of binary64 numbers
* `DataPoint.Convertible`: points that have samples
* `DataPoint.block`: the samples of a point, if it has some
* `Quantile.text`: the text of a share

## Main results

* `DataPoint.exists_samples_iff`, `Family.exists_ofSnapshot_iff`: which points have samples, and which
  snapshots have a family
* `samplesOf_eq_ok_iff`, `Family.samples_eq_flatMap`: samples are blocks, one for each point
* `Collection.families_eq_ok_iff`: the families of a collection are those of its snapshots, in order
-/

namespace Telemetry

/-! ## Timestamps -/

/-- **Timestamps that are missing or within the range of binary64 numbers.** -/
def Amount.Fits (a : Amount) : Prop :=
  a.isPresent = true → a.number.toBinary64?.isSome = true

instance (a : Amount) : Decidable a.Fits :=
  inferInstanceAs (Decidable (_ → _))

theorem Conversion.exists_toReal_iff {n : Number} :
    (∃ x, toReal n = .ok x) ↔ n.toBinary64?.isSome = true := by
  unfold toReal
  cases n.toBinary64? <;> simp

theorem Amount.exists_seconds?_iff {a : Amount} : (∃ t, a.seconds? = .ok t) ↔ a.Fits := by
  unfold Fits seconds?
  by_cases hpresent : a.isPresent = true
  · rw [if_pos hpresent, ← Conversion.exists_toReal_iff]
    simp only [bind_eq_ok_iff, hpresent, forall_const]
    constructor
    · rintro ⟨t, x, hx, -⟩
      exact ⟨x, hx⟩
    · rintro ⟨x, hx⟩
      exact ⟨_, x, hx, rfl⟩
  · simp [hpresent]

theorem Amount.isSome_of_seconds?_eq_ok {a : Amount} {t : Option Binary64} (h : a.seconds? = .ok t) :
    t.isSome = a.isPresent := by
  unfold seconds? at h
  by_cases hpresent : a.isPresent = true
  · rw [if_pos hpresent] at h
    obtain ⟨x, -, h⟩ := bind_eq_ok_iff.1 h
    cases h
    exact hpresent.symm
  · rw [if_neg hpresent] at h
    cases h
    simp [hpresent]

theorem Exemplar.exists_toSample?_iff {exemplar : Option Exemplar} :
    (∃ sample, toSample? exemplar = .ok sample) ↔ ∀ e ∈ exemplar, e.timestamp.Fits := by
  cases exemplar with
  | none => simp [toSample?]
  | some e =>
    simp only [toSample?, toSample, Option.mem_some_iff, forall_eq', ← Amount.exists_seconds?_iff]
    cases e.timestamp.seconds? with
    | error cause => simp [bind, Except.bind, Except.map]
    | ok t => simp [bind, Except.bind, Except.map, pure, Except.pure]

/-! ## Buckets and quantiles -/

namespace Buckets

/-- Numbers can be added up one after the other if all of them can be added up. -/
theorem isSome_runningTotals? (total : Number) (ns : List Number) :
    (runningTotals? total ns).isSome = (total? total ns).isSome := by
  induction ns generalizing total with
  | nil => rfl
  | cons n rest ih =>
    cases hadd : total.add? n with
    | none => simp [runningTotals?, total?, hadd]
    | some next =>
      simp only [runningTotals?, total?, hadd, Option.bind_eq_bind, Option.bind_some, ← ih next]
      cases runningTotals? next rest <;> rfl

end Buckets

theorem summed_eq_ok_iff {α : Type} {total : Option α} {n : α} :
    summed total = .ok n ↔ total = some n := by
  unfold summed
  cases total <;> simp

/-- Whole numbers between zero and one are zero and one. -/
theorem Number.eq_zero_or_one_of_isShare {n : Int} (h : (Number.whole n).isShare = true) :
    n = 0 ∨ n = 1 := by
  have hpos : (0 : Int) < Binary64.unitsPerOne :=
    Int.natCast_pos.2 (Nat.two_pow_pos Binary64.unitExponent)
  simp only [isShare, le, place?, Extended.le, Extended.order_units, Bool.and_eq_true,
    Int.isLE_compare] at h
  have hlow := (Int.mul_le_mul_right hpos).1 h.1
  have hhigh := (Int.mul_le_mul_right hpos).1 h.2
  omega

/-- Every share is a binary64 number, at its place. -/
theorem Number.exists_toBinary64?_of_isShare {n : Number} (h : n.isShare = true) :
    ∃ x, n.toBinary64? = some x ∧ x.place? = n.place? := by
  rw [← Option.map_eq_some_iff]
  cases n with
  | real x => rfl
  | truth b => cases b <;> decide +kernel
  | whole n => rcases eq_zero_or_one_of_isShare h with rfl | rfl <;> decide +kernel

def Quantile.text (q : Quantile) : String :=
  (q.share.toBinary64?.getD .nan).boundText

theorem DataPoint.shareText_eq (q : Quantile) : shareText q = .ok q.text := by
  obtain ⟨x, hx, -⟩ := Number.exists_toBinary64?_of_isShare q.isShare
  simp only [shareText, Conversion.toReal, Quantile.text, hx]
  rfl

/-! ## Points -/

/-- What a measurement needs to have samples, apart from the time of its scrape: timestamps that fit where
samples show them, and counts that can be added up. -/
def Measurement.Convertible (created : Amount) : Measurement → Prop
  | .base | .info | .stateSet _ => True
  | .counter _ exemplar => (∀ e ∈ exemplar, e.timestamp.Fits) ∧ created.Fits
  | .gauge _ exemplar | .unknown _ exemplar => ∀ e ∈ exemplar, e.timestamp.Fits
  | .histogram buckets _ _ => buckets.count?.isSome = true ∧ created.Fits
  | .summary .. => created.Fits

instance (created : Amount) : (m : Measurement) → Decidable (m.Convertible created)
  | .base | .info | .stateSet _ => inferInstanceAs (Decidable True)
  | .counter .. | .histogram .. => inferInstanceAs (Decidable (_ ∧ _))
  | .gauge .. | .unknown .. => inferInstanceAs (Decidable (∀ e ∈ _, Amount.Fits (Exemplar.timestamp e)))
  | .summary .. => inferInstanceAs (Decidable created.Fits)

namespace DataPoint

/-- **Points that have samples.** -/
def Convertible (p : DataPoint) : Prop :=
  p.scrape.Fits ∧ p.measurement.Convertible p.created

instance (p : DataPoint) : Decidable p.Convertible :=
  inferInstanceAs (Decidable (_ ∧ _))

variable {p : DataPoint} {family : String}

theorem exists_createdSamples_iff {timestamp : Option Binary64} :
    (∃ samples, p.createdSamples timestamp family = .ok samples) ↔ p.created.Fits := by
  unfold createdSamples
  rw [← Amount.exists_seconds?_iff]
  cases p.created.seconds? with
  | error cause => simp [bind, Except.bind]
  | ok created => cases created <;> simp [bind, Except.bind, pure, Except.pure]

/-- The sample of a bucket: what is counted up to its bound. -/
def bucketSample (p : DataPoint) (timestamp : Option Binary64) (family : String) (bound : Binary64)
    (total : Number) : Sample :=
  p.sample timestamp (family ++ "_bucket") [("le", bound.boundText)] (.number total)

/-- **The samples of buckets**: one for each bound, and the count of everything. -/
theorem bucketSamples_eq_ok_iff {timestamp : Option Binary64} {buckets : Buckets} {samples : List Sample} :
    p.bucketSamples timestamp family buckets = .ok samples ↔
      ∃ totals count, buckets.cumulative? = some totals ∧ buckets.count? = some count ∧
        samples = buckets.bounds.zipWith (p.bucketSample timestamp family) totals ++
          [p.sample timestamp (family ++ "_count") [] (.number count)] := by
  unfold bucketSamples
  simp only [bind_eq_ok_iff, summed_eq_ok_iff]
  constructor
  · rintro ⟨totals, htotals, count, hcount, h⟩
    cases h
    exact ⟨totals, count, htotals, hcount, rfl⟩
  · rintro ⟨totals, count, htotals, hcount, rfl⟩
    exact ⟨totals, htotals, count, hcount, rfl⟩

theorem exists_bucketSamples_iff {timestamp : Option Binary64} {buckets : Buckets} :
    (∃ samples, p.bucketSamples timestamp family buckets = .ok samples) ↔ buckets.count?.isSome = true := by
  have hsums : buckets.cumulative?.isSome = buckets.count?.isSome :=
    Buckets.isSome_runningTotals? _ _
  simp only [bucketSamples_eq_ok_iff]
  constructor
  · rintro ⟨samples, totals, count, -, hcount, -⟩
    exact Option.isSome_iff_exists.2 ⟨count, hcount⟩
  · intro hsome
    obtain ⟨totals, htotals⟩ := Option.isSome_iff_exists.1 (hsums.trans hsome)
    obtain ⟨count, hcount⟩ := Option.isSome_iff_exists.1 hsome
    exact ⟨_, totals, count, htotals, hcount, rfl⟩

theorem quantileSamples_eq (timestamp : Option Binary64) (quantiles : List Quantile) :
    p.quantileSamples timestamp family quantiles =
      .ok (quantiles.map fun q => p.sample timestamp family [("quantile", q.text)] q.value) := by
  induction quantiles with
  | nil => rfl
  | cons q rest ih =>
    simp only [quantileSamples, shareText_eq, ih]
    rfl

/-- **Which points have samples.** -/
theorem exists_samples_iff : (∃ samples, p.samples family = .ok samples) ↔ p.Convertible := by
  unfold samples Convertible
  simp only [bind_eq_ok_iff, ← Amount.exists_seconds?_iff]
  rw [exists_comm, ← exists_and_right]
  refine exists_congr fun timestamp => ?_
  rw [exists_and_left]
  refine and_congr_right fun _ => ?_
  cases hmeasurement : p.measurement with
  | base | info | stateSet states => simp [Measurement.Convertible, pure, Except.pure]
  | counter value exemplar =>
    simp only [Measurement.Convertible, bind_eq_ok_iff]
    constructor
    · rintro ⟨_, shown, hshown, created, hcreated, -⟩
      exact ⟨Exemplar.exists_toSample?_iff.1 ⟨shown, hshown⟩, exists_createdSamples_iff.1 ⟨created, hcreated⟩⟩
    · rintro ⟨hexemplar, hcreated⟩
      obtain ⟨shown, hshown⟩ := Exemplar.exists_toSample?_iff.2 hexemplar
      obtain ⟨created, hcreated⟩ := exists_createdSamples_iff.2 hcreated
      exact ⟨_, shown, hshown, created, hcreated, rfl⟩
  | gauge value exemplar | unknown value exemplar =>
    simp only [Measurement.Convertible, bind_eq_ok_iff]
    constructor
    · rintro ⟨_, shown, hshown, -⟩
      exact Exemplar.exists_toSample?_iff.1 ⟨shown, hshown⟩
    · intro hexemplar
      obtain ⟨shown, hshown⟩ := Exemplar.exists_toSample?_iff.2 hexemplar
      exact ⟨_, shown, hshown, rfl⟩
  | histogram buckets sum exemplars =>
    simp only [Measurement.Convertible, bind_eq_ok_iff]
    constructor
    · rintro ⟨_, counts, hcounts, created, hcreated, -⟩
      exact ⟨exists_bucketSamples_iff.1 ⟨counts, hcounts⟩, exists_createdSamples_iff.1 ⟨created, hcreated⟩⟩
    · rintro ⟨hcounts, hcreated⟩
      obtain ⟨counts, hcounts⟩ := exists_bucketSamples_iff.2 hcounts
      obtain ⟨created, hcreated⟩ := exists_createdSamples_iff.2 hcreated
      exact ⟨_, counts, hcounts, created, hcreated, rfl⟩
  | summary count sum quantiles exemplars =>
    simp only [Measurement.Convertible, bind_eq_ok_iff, quantileSamples_eq]
    constructor
    · rintro ⟨_, _, -, created, hcreated, -⟩
      exact exists_createdSamples_iff.1 ⟨created, hcreated⟩
    · intro hcreated
      obtain ⟨created, hcreated⟩ := exists_createdSamples_iff.2 hcreated
      exact ⟨_, _, rfl, created, hcreated, rfl⟩

/-- **The samples of a point as a block** of a family; none, if they cannot be formed. -/
def block (family : String) (p : DataPoint) : List Sample :=
  match p.samples family with
  | .ok samples => samples
  | .error _ => []

theorem block_of_samples {samples : List Sample} (h : p.samples family = .ok samples) :
    p.block family = samples := by
  rw [block, h]

theorem samples_eq_block_iff : p.samples family = .ok (p.block family) ↔ p.Convertible := by
  constructor
  · exact fun h => exists_samples_iff.1 ⟨_, h⟩
  · intro hconvertible
    have hexists : ∃ samples, p.samples family = .ok samples := exists_samples_iff.2 hconvertible
    obtain ⟨samples, h⟩ := hexists
    rw [block_of_samples h]
    exact h

end DataPoint

/-! ## Families -/

/-- **The samples of points are their blocks**, one after the other. -/
theorem samplesOf_eq_ok_iff {family : String} {points : List DataPoint} {samples : List Sample} :
    samplesOf family points = .ok samples ↔
      (∀ p ∈ points, p.samples family = .ok (p.block family)) ∧
        samples = points.flatMap (DataPoint.block family) := by
  induction points generalizing samples with
  | nil => simp [samplesOf, eq_comm]
  | cons p rest ih =>
    simp only [samplesOf, bind_eq_ok_iff, ih, List.forall_mem_cons, List.flatMap_cons]
    constructor
    · rintro ⟨block, hblock, _, ⟨hrest, rfl⟩, h⟩
      cases h
      rw [DataPoint.block_of_samples hblock]
      exact ⟨⟨hblock, hrest⟩, rfl⟩
    · rintro ⟨⟨hp, hrest⟩, rfl⟩
      exact ⟨p.block family, hp, _, ⟨hrest, rfl⟩, rfl⟩

theorem exists_samplesOf_iff (family : String) {points : List DataPoint} :
    (∃ samples, samplesOf family points = .ok samples) ↔ ∀ p ∈ points, p.Convertible := by
  simp only [samplesOf_eq_ok_iff, exists_and_left, exists_eq, and_true, DataPoint.samples_eq_block_iff]

namespace Family

theorem ofSnapshot_eq_ok_iff {s : Snapshot} {f : Family} :
    ofSnapshot s = .ok f ↔
      samplesOf s.metadata.familyName s.points = .ok f.samples ∧ f.name = s.metadata.familyName ∧
        f.help = s.metadata.help.getD "" ∧ f.kind = s.kind ∧
        f.unit = (s.metadata.unit.map (·.name)).getD "" := by
  simp only [ofSnapshot, bind_eq_ok_iff]
  constructor
  · rintro ⟨samples, hsamples, h⟩
    cases h
    exact ⟨hsamples, rfl, rfl, rfl, rfl⟩
  · rintro ⟨hsamples, hname, hhelp, hkind, hunit⟩
    refine ⟨f.samples, hsamples, ?_⟩
    rw [← hname, ← hhelp, ← hkind, ← hunit]
    rfl

/-- **The samples of a family are the blocks of its points**, in order. -/
theorem samples_eq_flatMap {s : Snapshot} {f : Family} (hf : ofSnapshot s = .ok f) :
    (∀ p ∈ s.points, p.samples f.name = .ok (p.block f.name)) ∧
      f.samples = s.points.flatMap (DataPoint.block f.name) := by
  obtain ⟨hsamples, hname, -⟩ := ofSnapshot_eq_ok_iff.1 hf
  rw [hname]
  exact samplesOf_eq_ok_iff.1 hsamples

/-- **Which snapshots have a family.** -/
theorem exists_ofSnapshot_iff {s : Snapshot} :
    (∃ f, ofSnapshot s = .ok f) ↔ ∀ p ∈ s.points, p.Convertible := by
  rw [← exists_samplesOf_iff s.metadata.familyName]
  simp only [ofSnapshot, bind_eq_ok_iff]
  constructor
  · rintro ⟨_, samples, hsamples, -⟩
    exact ⟨samples, hsamples⟩
  · rintro ⟨samples, hsamples⟩
    exact ⟨_, samples, hsamples, rfl⟩

theorem ofSnapshots_eq_ok_iff {snapshots : List Snapshot} {families : List Family} :
    ofSnapshots snapshots = .ok families ↔
      List.Forall₂ (fun s f => ofSnapshot s = .ok f) snapshots families := by
  induction snapshots generalizing families with
  | nil => simp [ofSnapshots, eq_comm]
  | cons s rest ih =>
    simp only [ofSnapshots, bind_eq_ok_iff, ih, List.forall₂_cons_left_iff]
    constructor
    · rintro ⟨f, hf, others, hothers, h⟩
      cases h
      exact ⟨f, others, hf, hothers, rfl⟩
    · rintro ⟨f, others, hf, hothers, rfl⟩
      exact ⟨f, hf, others, hothers, rfl⟩

end Family

/-- **The families of a collection are those of its snapshots**, in order. -/
theorem Collection.families_eq_ok_iff {c : Collection} {families : List Family} :
    c.families = .ok families ↔
      List.Forall₂ (fun s f => Family.ofSnapshot s = .ok f) c.snapshots families :=
  Family.ofSnapshots_eq_ok_iff

end Telemetry
