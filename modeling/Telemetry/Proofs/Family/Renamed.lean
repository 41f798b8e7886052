import Telemetry.Proofs.Collection.Renamed
import Telemetry.Proofs.Family.Names

/-!
# Families of renamed metrics

A text in front of the name of a metric is exposed in front of the name of its family and of the names of all its
samples, and changes nothing else that scrapes see but the label of a state, which has the name of the family. There is
one exception. The unit is appended to a name that does not end with it already, and a name that is the last part of
the unit ends with it behind a text that ends with the rest. The name alone has the unit appended then, and the name
behind the text has not.

## Main definitions

* `Metadata.CompletesUnit`: a text that makes a name end with the unit
* `Sample.Renamed`: samples that differ by the name of their family

## Main results

* `Metadata.familyName_of_completesUnit`, `Metadata.familyName_of_not_completesUnit`: the name of the family behind a
  text
* `DataPoint.forall₂_renamed`: the samples of a point in two families
* `Snapshot.exposition_of_withNamePrefix`: what is exposed of a renamed metric
* `Snapshot.seconds_exposed_behind_uptime`: a name that ends with its unit behind a text only
-/

namespace Telemetry

open Naming

/-! ## Names of families behind a text -/

theorem endsWith_append {lead name ending : String} (h : endsWith name ending = true) :
    endsWith (lead ++ name) ending = true := by
  rw [endsWith_iff] at h ⊢
  rw [String.toList_append]
  exact List.suffix_append_of_suffix h

/-- A name that ends with the unit behind a text ends with it alone, or is the last part of it. -/
theorem endsWith_or_of_append {lead name unit : String} (h : endsWith (lead ++ name) ("_" ++ unit) = true) :
    endsWith name ("_" ++ unit) = true ∨ endsWith unit name = true := by
  simp only [endsWith_iff, String.toList_append] at h ⊢
  rcases List.suffix_or_suffix_of_suffix h (List.suffix_append lead.toList name.toList) with halone | hpart
  · exact .inl halone
  · rcases List.suffix_cons_iff.1 hpart with hsame | hpart
    · exact .inl (hsame ▸ List.suffix_rfl)
    · exact .inr hpart

/-- A name that is the last part of a unit is too short to end with it behind an underscore. -/
theorem not_endsWith_of_endsWith {name unit : String} (h : endsWith unit name = true) :
    ¬endsWith name ("_" ++ unit) = true := by
  intro hends
  have hname := (endsWith_iff.1 h).length_le
  have hunit := (endsWith_iff.1 hends).length_le
  simp only [String.toList_append, List.length_append] at hunit
  have hunderscore : "_".toList.length = 1 := rfl
  omega

namespace Metadata

/-- **A text makes the name of a metric end with its unit**: the exposed name is the last part of the unit, and behind
the exposed text it ends with the unit. -/
def CompletesUnit (lead : String) (m : Metadata) : Prop :=
  ∃ unit ∈ m.unit, endsWith unit.name m.exposedName = true ∧
    endsWith (exposed lead ++ m.exposedName) ("_" ++ unit.name) = true

instance (lead : String) (m : Metadata) : Decidable (m.CompletesUnit lead) :=
  inferInstanceAs (Decidable (∃ unit ∈ m.unit, _ ∧ _))

variable {m m' : Metadata} {lead : String}

/-- **The unit is appended to the name alone** if a text makes the name end with it, and is not appended behind the
text. -/
theorem familyName_of_completesUnit (hname : m'.exposedName = exposed lead ++ m.exposedName) (hunit : m'.unit = m.unit)
    (h : m.CompletesUnit lead) :
    m'.familyName = exposed lead ++ m.exposedName ∧ m.familyName ≠ m.exposedName := by
  obtain ⟨unit, hmem, hpart, hends⟩ := h
  constructor
  · rw [familyName, hunit, hmem]
    dsimp only
    rw [hname, if_pos hends]
  · rw [familyName, hmem]
    dsimp only
    rw [if_neg (not_endsWith_of_endsWith hpart)]
    intro heq
    have hlength := congrArg String.length heq
    simp only [String.length_append] at hlength
    have hunderscore : "_".length = 1 := rfl
    omega

/-- **A text stands in front of the name of the family** if it does not make the name end with the unit. -/
theorem familyName_of_not_completesUnit (hname : m'.exposedName = exposed lead ++ m.exposedName)
    (hunit : m'.unit = m.unit) (h : ¬m.CompletesUnit lead) : m'.familyName = exposed lead ++ m.familyName := by
  unfold familyName
  rw [hunit]
  cases hm : m.unit with
  | none => exact hname
  | some unit =>
    dsimp only
    by_cases halone : endsWith m.exposedName ("_" ++ unit.name) = true
    · have hbehind : endsWith m'.exposedName ("_" ++ unit.name) = true := by
        rw [hname]
        exact endsWith_append halone
      rw [if_pos halone, if_pos hbehind, hname]
    · have hbehind : ¬endsWith m'.exposedName ("_" ++ unit.name) = true := by
        rw [hname]
        intro hends
        rcases endsWith_or_of_append hends with hends' | hpart
        · exact halone hends'
        · exact h ⟨unit, hm, hpart, hends⟩
      rw [if_neg halone, if_neg hbehind, hname]
      simp only [String.append_assoc]

end Metadata

/-! ## Samples of two families -/

namespace Sample

/-- **Samples that differ by the name of their family**, with the same ending behind it. The state of a state set is
added to the labels under the name of the family; all other labels are the same. -/
structure Renamed (c : PointClass) (family other : String) (a b : Sample) : Prop where
  name : ∃ ending ∈ sampleEndings, a.name = family ++ ending ∧ b.name = other ++ ending
  value : b.value = a.value
  timestamp : b.timestamp = a.timestamp
  exemplar : b.exemplar = a.exemplar
  labels : c ≠ .stateSet → b.labels = a.labels
  states : c = .stateSet → ∃ entries state,
    a.labels = assign family state entries ∧ b.labels = assign other state entries

/-- The name of a family is one of a sample, without an ending. -/
theorem exists_ending_of_families (family other : String) :
    ∃ ending ∈ sampleEndings, family = family ++ ending ∧ other = other ++ ending :=
  ⟨"", by decide, String.append_empty.symm, String.append_empty.symm⟩

/-- Samples with one exemplar differ as they do without. -/
theorem Renamed.withExemplar {c : PointClass} {family other : String} {a b : Sample} (h : Renamed c family other a b)
    (exemplar : Option SampleExemplar) :
    Renamed c family other { a with exemplar := exemplar } { b with exemplar := exemplar } :=
  { h with exemplar := rfl }

/-- With a text in front of the name of the family there is the same in front of the name of the sample. -/
theorem Renamed.name_eq {c : PointClass} {family lead : String} {a b : Sample}
    (h : Renamed c family (lead ++ family) a b) : b.name = lead ++ a.name := by
  obtain ⟨ending, -, ha, hb⟩ := h.name
  rw [ha, hb, String.append_assoc]

end Sample

namespace DataPoint

variable {p : DataPoint} {family other : String} {timestamp : Option Binary64} {samples others : List Sample}

section Parts

variable {c : PointClass}

/-- Samples of one point that are no states, with one ending. -/
theorem renamed_sample (hclass : c ≠ .stateSet) {ending : String} (hending : ending ∈ sampleEndings)
    (extra : List (String × String)) (value : Datum) :
    Sample.Renamed c family other (p.sample timestamp (family ++ ending) extra value)
      (p.sample timestamp (other ++ ending) extra value) :=
  ⟨⟨ending, hending, rfl, rfl⟩, rfl, rfl, rfl, fun _ => rfl, fun h => absurd h hclass⟩

/-- Samples of one point that are no states, under the names of families. -/
theorem renamed_family (hclass : c ≠ .stateSet) (extra : List (String × String)) (value : Datum) :
    Sample.Renamed c family other (p.sample timestamp family extra value) (p.sample timestamp other extra value) :=
  ⟨Sample.exists_ending_of_families family other, rfl, rfl, rfl, fun _ => rfl, fun h => absurd h hclass⟩

theorem forall₂_renamed_created (hclass : c ≠ .stateSet)
    (h : p.createdSamples timestamp family = .ok samples) (h' : p.createdSamples timestamp other = .ok others) :
    List.Forall₂ (Sample.Renamed c family other) samples others := by
  unfold createdSamples at h h'
  obtain ⟨created, hcreated, h⟩ := bind_eq_ok_iff.1 h
  obtain ⟨created', hcreated', h'⟩ := bind_eq_ok_iff.1 h'
  cases hcreated.symm.trans hcreated'
  cases created with
  | none =>
    cases h
    cases h'
    exact .nil
  | some t =>
    cases h
    cases h'
    exact .cons (renamed_sample hclass (by decide) [] _) .nil

theorem forall₂_renamed_sum (hclass : c ≠ .stateSet) (sum : Datum) :
    List.Forall₂ (Sample.Renamed c family other) (p.sumSamples timestamp family sum)
      (p.sumSamples timestamp other sum) := by
  unfold sumSamples
  split
  · exact .nil
  · exact .cons (renamed_sample hclass (by decide) [] _) .nil

theorem forall₂_renamed_buckets (hclass : c ≠ .stateSet) {buckets : Buckets}
    (h : p.bucketSamples timestamp family buckets = .ok samples)
    (h' : p.bucketSamples timestamp other buckets = .ok others) :
    List.Forall₂ (Sample.Renamed c family other) samples others := by
  obtain ⟨totals, count, htotals, hcount, rfl⟩ := bucketSamples_eq_ok_iff.1 h
  obtain ⟨totals', count', htotals', hcount', rfl⟩ := bucketSamples_eq_ok_iff.1 h'
  cases htotals.symm.trans htotals'
  cases hcount.symm.trans hcount'
  refine List.rel_append ?_ (.cons (renamed_sample hclass (by decide) [] _) .nil)
  rw [← List.map_uncurry_zip_eq_zipWith, ← List.map_uncurry_zip_eq_zipWith]
  exact forall₂_map_map fun entry _ => renamed_sample hclass (by decide) [("le", entry.1.boundText)] _

/-- The state stands in the labels under the name of the family, behind the same labels. -/
theorem forall₂_renamed_states (states : StateSet) :
    List.Forall₂ (Sample.Renamed .stateSet family other) (p.stateSamples timestamp family states)
      (p.stateSamples timestamp other states) :=
  forall₂_map_map fun s _ => ⟨Sample.exists_ending_of_families family other, rfl, rfl, rfl, fun h => absurd rfl h,
    fun _ => ⟨p.labels.toExposedList, s.name, rfl, rfl⟩⟩

end Parts

/-- **The samples of a point in two families** differ by the name of the family, one by one. -/
theorem forall₂_renamed (h : p.samples family = .ok samples) (h' : p.samples other = .ok others) :
    List.Forall₂ (Sample.Renamed p.pointClass family other) samples others := by
  unfold DataPoint.samples at h h'
  obtain ⟨timestamp, htimestamp, h⟩ := bind_eq_ok_iff.1 h
  obtain ⟨timestamp', htimestamp', h'⟩ := bind_eq_ok_iff.1 h'
  cases htimestamp.symm.trans htimestamp'
  rw [pointClass]
  cases hmeasurement : p.measurement <;> rw [hmeasurement] at h h'
  case base =>
    cases h
    cases h'
    exact .nil
  case info =>
    cases h
    cases h'
    exact .cons (renamed_sample (by nofun) (by decide) [] _) .nil
  case counter value exemplar =>
    obtain ⟨shown, hshown, h⟩ := bind_eq_ok_iff.1 h
    obtain ⟨created, hcreated, h⟩ := bind_eq_ok_iff.1 h
    obtain ⟨shown', hshown', h'⟩ := bind_eq_ok_iff.1 h'
    obtain ⟨created', hcreated', h'⟩ := bind_eq_ok_iff.1 h'
    cases hshown.symm.trans hshown'
    cases h
    cases h'
    exact .cons ((renamed_sample (by nofun) (by decide) [] _).withExemplar shown)
      (forall₂_renamed_created (by nofun) hcreated hcreated')
  case gauge value exemplar | unknown value exemplar =>
    obtain ⟨shown, hshown, h⟩ := bind_eq_ok_iff.1 h
    obtain ⟨shown', hshown', h'⟩ := bind_eq_ok_iff.1 h'
    cases hshown.symm.trans hshown'
    cases h
    cases h'
    exact .cons ((renamed_family (by nofun) [] _).withExemplar shown) .nil
  case histogram buckets sum exemplars =>
    obtain ⟨counts, hcounts, h⟩ := bind_eq_ok_iff.1 h
    obtain ⟨created, hcreated, h⟩ := bind_eq_ok_iff.1 h
    obtain ⟨counts', hcounts', h'⟩ := bind_eq_ok_iff.1 h'
    obtain ⟨created', hcreated', h'⟩ := bind_eq_ok_iff.1 h'
    cases h
    cases h'
    exact List.rel_append
      (List.rel_append (forall₂_renamed_buckets (by nofun) hcounts hcounts') (forall₂_renamed_sum (by nofun) sum))
      (forall₂_renamed_created (by nofun) hcreated hcreated')
  case summary count sum quantiles exemplars =>
    obtain ⟨shares, hshares, h⟩ := bind_eq_ok_iff.1 h
    obtain ⟨created, hcreated, h⟩ := bind_eq_ok_iff.1 h
    obtain ⟨shares', hshares', h'⟩ := bind_eq_ok_iff.1 h'
    obtain ⟨created', hcreated', h'⟩ := bind_eq_ok_iff.1 h'
    rw [quantileSamples_eq] at hshares hshares'
    cases hshares
    cases hshares'
    cases h
    cases h'
    refine List.rel_append (List.rel_append (List.rel_append ?_ ?_) (forall₂_renamed_sum (by nofun) sum))
      (forall₂_renamed_created (by nofun) hcreated hcreated')
    · exact forall₂_map_map fun q _ => renamed_family (by nofun) [("quantile", q.text)] q.value
    · exact forall₂_map_map fun n _ => renamed_sample (by nofun) (by decide) [] (.number n.number)
  case stateSet states =>
    cases h
    cases h'
    exact forall₂_renamed_states states

end DataPoint

/-- The samples of points in two families differ by the name of the family, one by one. -/
theorem forall₂_renamed_samplesOf {c : PointClass} {family other : String} {points : List DataPoint}
    {samples others : List Sample} (hclass : ∀ p ∈ points, p.pointClass = c)
    (h : samplesOf family points = .ok samples) (h' : samplesOf other points = .ok others) :
    List.Forall₂ (Sample.Renamed c family other) samples others := by
  induction points generalizing samples others with
  | nil =>
    cases h
    cases h'
    exact .nil
  | cons p rest ih =>
    obtain ⟨first, hfirst, h⟩ := bind_eq_ok_iff.1 h
    obtain ⟨more, hmore, h⟩ := bind_eq_ok_iff.1 h
    obtain ⟨first', hfirst', h'⟩ := bind_eq_ok_iff.1 h'
    obtain ⟨more', hmore', h'⟩ := bind_eq_ok_iff.1 h'
    cases h
    cases h'
    refine List.rel_append ?_ (ih (fun q hq => hclass q (List.mem_cons_of_mem _ hq)) hmore hmore')
    rw [← hclass p List.mem_cons_self]
    exact DataPoint.forall₂_renamed hfirst hfirst'

/-! ## Renamed metrics -/

namespace Snapshot

variable {s t : Snapshot} {lead : String}

/-- The samples of a renamed metric differ by the name of the family, one by one. -/
theorem Renamed.forall₂_samples {f g : Family} (h : Renamed lead s t) (hf : Family.ofSnapshot s = .ok f)
    (hg : Family.ofSnapshot t = .ok g) :
    List.Forall₂ (Sample.Renamed s.kind.pointClass f.name g.name) f.samples g.samples := by
  obtain ⟨hsamples, hname, -⟩ := Family.ofSnapshot_eq_ok_iff.1 hf
  obtain ⟨hothers, hother, -⟩ := Family.ofSnapshot_eq_ok_iff.1 hg
  rw [h.points] at hothers
  rw [hname, hother]
  exact forall₂_renamed_samplesOf s.classed hsamples hothers

/-- **What is exposed of a metric with a text in front of its name**, if all timestamps that scrapes see are in range.
There is a family exactly if there was one, when the counts of buckets can be added up. The text is exposed in front of
the names of the family and of all samples, unless it makes the name end with the unit, which is not appended then. All
else that scrapes see of the samples is as it was, but for the label of a state, which has the name of the family. -/
theorem exposition_of_withNamePrefix (h : s.withNamePrefix lead = .ok t)
    (hshown : ∀ p ∈ s.points, ∀ x ∈ p.shownTimestamps, x.number.InRange) :
    ((∃ f, Family.ofSnapshot s = .ok f) ↔ ∀ p ∈ s.points, p.measurement.CountsAdd) ∧
      ((∃ g, Family.ofSnapshot t = .ok g) ↔ ∀ p ∈ s.points, p.measurement.CountsAdd) ∧
      ∀ f g, Family.ofSnapshot s = .ok f → Family.ofSnapshot t = .ok g →
        (¬s.metadata.CompletesUnit lead → g.name = exposed lead ++ f.name ∧
          List.Forall₂ (fun a b => b.name = exposed lead ++ a.name) f.samples g.samples) ∧
        (s.metadata.CompletesUnit lead → g.name = exposed lead ++ s.exposedName ∧
          g.name ≠ exposed lead ++ f.name) ∧
        List.Forall₂ (Sample.Renamed s.kind.pointClass f.name g.name) f.samples g.samples := by
  have hrenamed := withNamePrefix_eq_ok_iff.1 h
  refine ⟨Family.exists_ofSnapshot_iff_of_shown hshown, ?_, fun f g hf hg => ?_⟩
  · rw [← hrenamed.points]
    rw [← hrenamed.points] at hshown
    exact Family.exists_ofSnapshot_iff_of_shown hshown
  · have hsamples := hrenamed.forall₂_samples hf hg
    refine ⟨fun hcompletes => ?_, fun hcompletes => ?_, hsamples⟩
    · have hname : g.name = exposed lead ++ f.name := by
        rw [Family.name_of_ofSnapshot hf, Family.name_of_ofSnapshot hg]
        exact Metadata.familyName_of_not_completesUnit hrenamed.exposedName hrenamed.unit hcompletes
      rw [hname] at hsamples
      exact ⟨hname, hsamples.imp fun _ _ => Sample.Renamed.name_eq⟩
    · obtain ⟨hlong, halone⟩ :=
        Metadata.familyName_of_completesUnit hrenamed.exposedName hrenamed.unit hcompletes
      rw [Family.name_of_ofSnapshot hf, Family.name_of_ofSnapshot hg]
      refine ⟨hlong, fun heq => halone ?_⟩
      rw [hlong] at heq
      exact ((String.append_right_inj (exposed lead)).1 heq).symm

/-! ### A text that stays in front and one that does not -/

def second (name : String) (legal : MetricName.problem? name = none) : Snapshot :=
  level name (some .seconds) 1 legal

theorem exists_ofSnapshot_second (name : String) (legal : MetricName.problem? name = none) :
    ∃ f, Family.ofSnapshot (second name legal) = .ok f :=
  Family.exists_ofSnapshot_iff.2 fun p hp => DataPoint.convertible_iff.2 (shown_level p hp)

theorem exposition_of_app_wait :
    (second "wait.time" (by decide)).withNamePrefix "app." = .ok (second "app.wait.time" (by decide)) ∧
      (∀ p ∈ (second "wait.time" (by decide)).points, ∀ x ∈ p.shownTimestamps, x.number.InRange) ∧
      ∃ f g, Family.ofSnapshot (second "wait.time" (by decide)) = .ok f ∧
        Family.ofSnapshot (second "app.wait.time" (by decide)) = .ok g ∧
        f.name = "wait_time_seconds" ∧ g.name = exposed "app." ++ f.name ∧
        List.Forall₂ (fun a b => b.name = exposed "app." ++ a.name) f.samples g.samples := by
  have hrenamed : (second "wait.time" (by decide)).withNamePrefix "app." =
      .ok (second "app.wait.time" (by decide)) :=
    withNamePrefix_eq_ok_iff.2 ⟨by decide, by decide, rfl, rfl, rfl, rfl⟩
  have hshown : ∀ p ∈ (second "wait.time" (by decide)).points, ∀ x ∈ p.shownTimestamps, x.number.InRange :=
    fun p hp => (shown_level p hp).1
  obtain ⟨-, -, hfamilies⟩ := exposition_of_withNamePrefix hrenamed hshown
  obtain ⟨f, hf⟩ := exists_ofSnapshot_second "wait.time" (by decide)
  obtain ⟨g, hg⟩ := exists_ofSnapshot_second "app.wait.time" (by decide)
  obtain ⟨hname, hnames⟩ := (hfamilies f g hf hg).1 (by decide)
  refine ⟨hrenamed, hshown, f, g, hf, hg, ?_, hname, hnames⟩
  rw [Family.name_of_ofSnapshot hf]
  decide

/-- **A text does not always stay in front of the name of the family**: "seconds" has its unit appended,
"uptime_seconds" has not. -/
theorem seconds_exposed_behind_uptime :
    (second "seconds" (by decide)).withNamePrefix "uptime_" = .ok (second "uptime_seconds" (by decide)) ∧
      (∀ p ∈ (second "seconds" (by decide)).points, ∀ x ∈ p.shownTimestamps, x.number.InRange) ∧
      ∃ f g, Family.ofSnapshot (second "seconds" (by decide)) = .ok f ∧
        Family.ofSnapshot (second "uptime_seconds" (by decide)) = .ok g ∧
        f.name = "seconds_seconds" ∧ g.name = "uptime_seconds" ∧ g.name ≠ exposed "uptime_" ++ f.name := by
  obtain ⟨f, hf⟩ := exists_ofSnapshot_second "seconds" (by decide)
  obtain ⟨g, hg⟩ := exists_ofSnapshot_second "uptime_seconds" (by decide)
  refine ⟨withNamePrefix_eq_ok_iff.2 ⟨by decide, by decide, rfl, rfl, rfl, rfl⟩,
    fun p hp => (shown_level p hp).1, f, g, hf, hg, ?_⟩
  rw [Family.name_of_ofSnapshot hf, Family.name_of_ofSnapshot hg]
  decide

end Snapshot

end Telemetry
