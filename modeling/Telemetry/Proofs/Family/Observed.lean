import Telemetry.Exporter.Meter
import Telemetry.Proofs.Family.Apart
import Telemetry.Proofs.Family.Shown
import Telemetry.Proofs.Snapshot.Canonical

/-!
# Families and observations

A metric is seen as samples by scrapes and as observations by instruments. Both are made of its points in ways of
their own: samples have exposed names and exposed labels, observations keep the names of labels as they are. Of a
metric that can be observed, both say the same. Apart from the samples that say when a point was created, there is
one sample for each observation, in the same order, with the same value, and with the labels that the attributes
are when their keys are exposed.

The two ways part where the state of a state set is added to the labels: under the name of the family on the one,
under the name of the metric on the other. A label that is named like the metric, or is exposed under its name, is
replaced in place by the one and replaced or overruled by the other.

## Main definitions

* `Observation.exposedAttributes`: attributes with their keys exposed
* `Sample.Shows`: a sample says the same as an observation
* `Sample.tellsCreation`: the samples that say when a point was created

## Main results

* `assignAll_map_assign`: an assignment before keys are changed is one after they are changed
* `Metadata.endsWith_created_iff`: which samples say when a point was created
* `Snapshot.samples_show_observations`: the samples of a metric that can be observed show its observations
-/

namespace Telemetry

/-! ## Dictionaries whose keys are changed -/

section Dictionary

variable {κ κ' α : Type} [DecidableEq κ] [DecidableEq κ'] {entries : List (κ × α)}

/-- Entries with keys of their own are put at the end, one after the other. -/
theorem assignAll_eq_append {known more : List (κ × α)} (h : ((known ++ more).map (·.1)).Nodup) :
    assignAll known more = known ++ more := by
  induction more generalizing known with
  | nil => rw [List.append_nil]; rfl
  | cons entry rest ih =>
    have hassoc : known ++ entry :: rest = (known ++ [entry]) ++ rest := by simp
    rw [hassoc] at h ⊢
    have hnew : entry.1 ∉ known.map (·.1) := by
      rw [List.map_append, List.map_append, List.nodup_append] at h
      intro hmem
      exact (List.nodup_append.1 h.1).2.2 _ hmem entry.1 (by simp) rfl
    rw [← ih h]
    exact congrArg (assignAll · rest) (assign_of_not_mem entry.2 hnew)

/-- A dictionary is made again from its entries. -/
theorem assignAll_nil_eq (h : (entries.map (·.1)).Nodup) : assignAll [] entries = entries :=
  assignAll_eq_append h

/-- A dictionary with a new value for one of its keys has the new value for the changed key, if changed keys are
different. -/
theorem map_assign_of_mem (f : κ → κ') {key : κ} (value : α)
    (hkeys : (entries.map fun entry => f entry.1).Nodup) (hkey : key ∈ entries.map (·.1)) :
    (assign key value entries).map (Prod.map f id) =
      assign (f key) value (entries.map (Prod.map f id)) := by
  induction entries with
  | nil => cases hkey
  | cons entry rest ih =>
    rw [List.map_cons, List.nodup_cons] at hkeys
    by_cases hentry : entry.1 = key
    · simp [assign, hentry]
    · have hrest : key ∈ rest.map (·.1) := (List.mem_cons.1 hkey).resolve_left (Ne.symm hentry)
      have hchanged : f entry.1 ≠ f key := by
        intro heq
        obtain ⟨other, hother, rfl⟩ := List.mem_map.1 hrest
        exact hkeys.1 (List.mem_map.2 ⟨other, hother, heq.symm⟩)
      simp [assign, hentry, hchanged, ih hkeys.2 hrest]

/-- **An assignment before keys are changed is one after they are changed**, if the changed keys were different
and the later of two entries counts whose keys become equal. -/
theorem assignAll_map_assign (f : κ → κ') (key : κ) (value : α)
    (hkeys : (entries.map fun entry => f entry.1).Nodup) :
    assignAll [] ((assign key value entries).map (Prod.map f id)) =
      assign (f key) value (entries.map (Prod.map f id)) := by
  have hchanged : ((entries.map (Prod.map f id)).map (·.1)).Nodup := by
    rw [List.map_map]
    exact hkeys
  by_cases hkey : key ∈ entries.map (·.1)
  · rw [map_assign_of_mem f value hkeys hkey]
    exact assignAll_nil_eq (nodup_keys_assign hchanged)
  · rw [assign_of_not_mem value hkey, List.map_append, assignAll, List.foldl_append]
    exact congrArg (assign (f key) value) (assignAll_nil_eq hchanged)

end Dictionary

/-! ## What samples and observations say -/

/-- **The same value**: numbers at the same place, whatever their sort, where `nan` is no place; and all else
as it is. -/
def Datum.SameValue : Datum → Datum → Prop
  | .number m, .number n => m.place? = n.place?
  | d, e => d = e

namespace Datum.SameValue

theorem refl (d : Datum) : d.SameValue d := by
  cases d <;> rfl

/-- A truth value is the same as a real number and as a whole number. -/
theorem indicator (b : Bool) :
    SameValue (.number (DataPoint.indicator b)) (.whole (if b then 1 else 0)) := by
  cases b with
  | false =>
    show (DataPoint.indicator false).place? = (Number.whole 0).place?
    decide +kernel
  | true =>
    show (DataPoint.indicator true).place? = (Number.whole 1).place?
    decide +kernel

end Datum.SameValue

/-- **Attributes as labels**: keys are exposed, and of those that become equal the last one counts. -/
def Observation.exposedAttributes (o : Observation) : List (String × String) :=
  assignAll [] (o.attributes.map (Prod.map Naming.exposed id))

namespace Sample

/-- **A sample says the same as an observation**: the same value, under the exposed attributes. -/
structure Shows (a : Sample) (o : Observation) : Prop where
  value : a.value.SameValue o.value
  labels : a.labels = o.exposedAttributes

/-- The samples that say when a point was created. -/
def tellsCreation (a : Sample) : Bool :=
  endsWith a.name "_created"

end Sample

namespace Labels

theorem map_exposed_toList (l : Labels) :
    l.toList.map (Prod.map Naming.exposed id) = l.toExposedList := by
  rw [toList, toExposedList, List.map_map]
  rfl

theorem nodup_exposed_names (l : Labels) : (l.toList.map fun entry => Naming.exposed entry.1).Nodup := by
  have hkeys := l.nodup_exposed_keys
  rwa [← map_exposed_toList, List.map_map] at hkeys

/-- Attributes that are labels are exposed as these labels. -/
theorem exposedAttributes_toList (l : Labels) (value : Datum) :
    Observation.exposedAttributes ⟨value, l.toList⟩ = l.toExposedList := by
  rw [Observation.exposedAttributes, map_exposed_toList]
  exact assignAll_nil_eq l.nodup_exposed_keys

/-- **Attributes that are labels and a name with its state** are exposed as these labels, in which the exposed
name has the state, whichever label was exposed under it. -/
theorem exposedAttributes_assign (l : Labels) (value : Datum) (name state : String) :
    Observation.exposedAttributes ⟨value, assign name state l.toList⟩ =
      assign (Naming.exposed name) state l.toExposedList := by
  rw [Observation.exposedAttributes, ← map_exposed_toList]
  exact assignAll_map_assign Naming.exposed name state l.nodup_exposed_names

end Labels

/-! ## Samples of creation times -/

open Naming

/-- **Which samples say when a point was created**: those of the ending for it. No name of a family ends so. -/
theorem Metadata.endsWith_created_iff (m : Metadata) {ending : String} (h : ending ∈ sampleEndings) :
    endsWith (m.familyName ++ ending) "_created" = true ↔ ending = "_created" := by
  rw [endsWith_iff, m.reserved_suffix_iff h (by decide), String.toList_inj]

namespace DataPoint

variable {m : Metadata} {p : DataPoint} {samples : List Sample}

theorem tellsCreation_of_ne {a : Sample} {ending : String} (hname : a.name = m.familyName ++ ending)
    (hending : ending ∈ sampleEndings) (hne : ending ≠ "_created") : a.tellsCreation = false := by
  rw [Sample.tellsCreation, hname, Bool.eq_false_iff, ne_eq, m.endsWith_created_iff hending]
  exact hne

/-- The sample of a creation time says when a point was created. -/
theorem filter_createdSamples {timestamp : Option Binary64}
    (h : p.createdSamples timestamp m.familyName = .ok samples) :
    samples.filter (!·.tellsCreation) = [] := by
  unfold createdSamples at h
  obtain ⟨created, -, h⟩ := bind_eq_ok_iff.1 h
  cases created with
  | none =>
    cases h
    rfl
  | some t =>
    cases h
    have htells : endsWith (m.familyName ++ "_created") "_created" = true :=
      (m.endsWith_created_iff (by decide)).2 rfl
    simp [Sample.tellsCreation, sample, htells]

/-! ## Samples and observations of a point -/

/-- A sample under the labels as they are shows an observation under them. -/
theorem forall₂_shows_plain {a : Sample} {ending : String} {value : Datum}
    (hname : a.name = m.familyName ++ ending) (hending : ending ∈ sampleEndings)
    (hne : ending ≠ "_created") (hvalue : a.value.SameValue value)
    (hlabels : a.labels = p.labels.toExposedList) :
    List.Forall₂ Sample.Shows ([a].filter (!·.tellsCreation)) [⟨value, p.labels.toList⟩] := by
  have htells := tellsCreation_of_ne hname hending hne
  rw [List.filter_cons_of_pos (by simp [htells]), List.filter_nil]
  refine .cons ⟨hvalue, ?_⟩ .nil
  rw [hlabels, Labels.exposedAttributes_toList]

/-- **States** are shown under the name of the family, and observed under the name of the metric. -/
theorem forall₂_shows_states (hname : m.familyName = Naming.exposed m.name)
    (timestamp : Option Binary64) (states : StateSet) :
    List.Forall₂ Sample.Shows
      ((p.stateSamples timestamp m.familyName states).filter (!·.tellsCreation))
      (states.toList.map fun s =>
        ⟨.whole (if s.enabled then 1 else 0), assign m.name s.name p.labels.toList⟩) := by
  have hall : (p.stateSamples timestamp m.familyName states).filter (!·.tellsCreation) =
      p.stateSamples timestamp m.familyName states := by
    rw [List.filter_eq_self]
    intro a ha
    obtain ⟨s, -, rfl⟩ := List.mem_map.1 ha
    have hname : (p.sample timestamp m.familyName [(m.familyName, s.name)]
        (.number (indicator s.enabled))).name = m.familyName ++ "" := (String.append_empty).symm
    rw [tellsCreation_of_ne hname (by decide) (by decide)]
    rfl
  rw [hall]
  refine forall₂_map_map fun s _ => ⟨Datum.SameValue.indicator s.enabled, ?_⟩
  rw [Labels.exposedAttributes_assign, ← hname]
  rfl

/-- **The samples of a point show its observations**, measurement by measurement. -/
theorem forall₂_shows (hobservable : p.pointClass ≠ .histogram ∧ p.pointClass ≠ .summary)
    (hstates : p.pointClass = .stateSet → m.familyName = Naming.exposed m.name)
    (h : p.samples m.familyName = .ok samples) :
    List.Forall₂ Sample.Shows (samples.filter (!·.tellsCreation)) (p.observations m.name) := by
  unfold DataPoint.samples at h
  obtain ⟨timestamp, -, h⟩ := bind_eq_ok_iff.1 h
  unfold observations
  rw [pointClass] at hobservable hstates
  cases hmeasurement : p.measurement <;> rw [hmeasurement] at h hobservable hstates
  case base =>
    cases h
    exact .nil
  case info =>
    cases h
    exact forall₂_shows_plain rfl (by decide) (by decide) (Datum.SameValue.indicator true) rfl
  case counter value exemplar =>
    obtain ⟨shown, -, h⟩ := bind_eq_ok_iff.1 h
    obtain ⟨created, hcreated, h⟩ := bind_eq_ok_iff.1 h
    cases h
    rw [← List.singleton_append, List.filter_append, filter_createdSamples hcreated, List.append_nil]
    exact forall₂_shows_plain rfl (by decide) (by decide) (.refl _) rfl
  case gauge value exemplar | unknown value exemplar =>
    obtain ⟨shown, -, h⟩ := bind_eq_ok_iff.1 h
    cases h
    exact forall₂_shows_plain (String.append_empty).symm (by decide) (by decide) (.refl _) rfl
  case stateSet states =>
    cases h
    exact forall₂_shows_states (hstates rfl) timestamp states
  case histogram => exact absurd rfl hobservable.1
  case summary => exact absurd rfl hobservable.2

end DataPoint

/-! ## Families -/

namespace Snapshot

/-- What can be observed has neither buckets nor quantiles. -/
theorem pointClass_of_isObservable {kind : Kind} (h : kind.isObservable = true) :
    kind.pointClass ≠ .histogram ∧ kind.pointClass ≠ .summary := by
  cases kind <;> first | exact ⟨by decide, by decide⟩ | cases h

/-- State sets have no unit, so their families have their exposed names. -/
theorem familyName_of_stateSet {s : Snapshot} (h : s.kind.pointClass = .stateSet) :
    s.metadata.familyName = Naming.exposed s.name := by
  have hkind : s.kind.allowsUnit = false := by
    revert h
    cases s.kind <;> simp [Kind.allowsUnit, Kind.pointClass]
  rw [Metadata.familyName, s.unit_eq_none hkind]
  rfl

/-- Samples of points one after the other show the observations of the points, one after the other. -/
theorem forall₂_shows_samplesOf {m : Metadata} {points : List DataPoint}
    (hobservable : ∀ p ∈ points, p.pointClass ≠ .histogram ∧ p.pointClass ≠ .summary)
    (hstates : ∀ p ∈ points, p.pointClass = .stateSet → m.familyName = Naming.exposed m.name)
    {samples : List Sample} (h : samplesOf m.familyName points = .ok samples) :
    List.Forall₂ Sample.Shows (samples.filter (!·.tellsCreation))
      (points.flatMap (DataPoint.observations m.name)) := by
  induction points generalizing samples with
  | nil =>
    cases h
    exact .nil
  | cons p rest ih =>
    obtain ⟨first, hfirst, h⟩ := bind_eq_ok_iff.1 h
    obtain ⟨others, hothers, h⟩ := bind_eq_ok_iff.1 h
    cases h
    rw [List.filter_append, List.flatMap_cons]
    refine List.rel_append ?_ (ih (fun q hq => hobservable q (List.mem_cons_of_mem _ hq))
      (fun q hq => hstates q (List.mem_cons_of_mem _ hq)) hothers)
    exact DataPoint.forall₂_shows (hobservable p List.mem_cons_self) (hstates p List.mem_cons_self) hfirst

/-- **The samples of a metric that can be observed show its observations**: if all timestamps that scrapes see
are in range, there is a family, and apart from the samples that say when a point was created, it has one sample
for each observation, in the same order, that says the same. -/
theorem samples_show_observations {s : Snapshot} (hkind : s.kind.isObservable = true)
    (hshown : ∀ p ∈ s.points, ∀ t ∈ p.shownTimestamps, t.number.InRange) :
    ∃ f, Family.ofSnapshot s = .ok f ∧
      List.Forall₂ Sample.Shows (f.samples.filter (!·.tellsCreation)) s.observations := by
  have hobservable : ∀ p ∈ s.points, p.pointClass ≠ .histogram ∧ p.pointClass ≠ .summary := by
    intro p hp
    rw [s.classed p hp]
    exact pointClass_of_isObservable hkind
  have hconvertible : ∀ p ∈ s.points, p.Convertible := by
    intro p hp
    rw [DataPoint.convertible_iff]
    refine ⟨hshown p hp, ?_⟩
    have hclass := (hobservable p hp).1
    revert hclass
    rw [DataPoint.pointClass]
    cases p.measurement <;> simp [Measurement.CountsAdd, Measurement.pointClass]
  obtain ⟨f, hf⟩ := Family.exists_ofSnapshot_iff.2 hconvertible
  refine ⟨f, hf, forall₂_shows_samplesOf hobservable (fun p hp hclass => ?_)
    (Family.ofSnapshot_eq_ok_iff.1 hf).1⟩
  rw [s.classed p hp] at hclass
  exact familyName_of_stateSet hclass

/-- A door that is open, with a label that is exposed under the name of the metric. -/
def door : Snapshot where
  kind := .stateSet
  metadata := ⟨"door.state", none, none, by decide⟩
  points := [.ofParts ⟨[⟨"door_state", "front"⟩], by decide, by decide⟩ .zero .zero
    (.stateSet ⟨[⟨"ajar", false⟩, ⟨"open", true⟩], by decide, by decide, by decide⟩)]
  unitAllowed h := by cases h
  classed p hp := by
    rw [List.mem_singleton.1 hp]
    rfl
  ordered := chained_singleton _

/-- The states of the door are observed under the name of the metric, next to the label. As samples they take the
place of the label. -/
theorem door_samples_show_observations :
    door.kind.isObservable = true ∧
      (∀ p ∈ door.points, ∀ t ∈ p.shownTimestamps, t.number.InRange) ∧
      door.observations.map Observation.attributes =
        [[("door_state", "front"), ("door.state", "ajar")],
          [("door_state", "front"), ("door.state", "open")]] ∧
      door.observations.map Observation.exposedAttributes =
        [[("door_state", "ajar")], [("door_state", "open")]] ∧
      ∃ f, Family.ofSnapshot door = .ok f ∧
        List.Forall₂ Sample.Shows (f.samples.filter (!·.tellsCreation)) door.observations := by
  have hkind : door.kind.isObservable = true := rfl
  have hshown : ∀ p ∈ door.points, ∀ t ∈ p.shownTimestamps, t.number.InRange := by
    intro p hp t ht
    rw [List.mem_singleton.1 hp] at ht
    rw [List.mem_singleton.1 ht]
    exact Number.inRange_of_le (Nat.zero_le _)
  exact ⟨hkind, hshown, by decide, by decide, samples_show_observations hkind hshown⟩

end Snapshot

end Telemetry
