import Telemetry.Proofs.Family.Names
import Telemetry.Proofs.Family.Observed

/-!
# Keys of labels that scrapes see

The keys of the labels of samples have three sources: names of labels with underscores for dots, the fixed words for
bounds and shares, and the name of a state set, under which it has its states. The first two consist of letters, digits
and underscores, and do not start with a digit or with two underscores. The name of a metric may start with two
underscores, and it may hold colons, which no other key may.

## Main definitions

* `Naming.keyGrammar`, `Naming.LegalKey`: the characters of keys, and keys that are not reserved
* `Sample.keys`: the keys of the labels of a sample and of its exemplar
* `Family.KeysAccepted`: families that have all their keys in the grammar, and none of them reserved but for the one of
  states

## Main results

* `Naming.legalKey_exposed`: names of labels are exposed as legal keys
* `Metadata.accepts_key_iff`: which names of metrics are exposed as keys of the grammar
* `DataPoint.legalKey_or_of_mem_keys`: the keys of the samples of a point
* `Family.exposed_keys_iff`: which metrics are exposed under keys of the grammar
* `Family.colon_state_exposed`: a state set whose states are under a name with a colon
-/

namespace Telemetry

/-! ## The grammar -/

namespace Naming

/-- **The characters of keys.** -/
def keyGrammar : Grammar where
  isFirst c := c.isAlpha || c == '_'
  isRest c := c.isAlphanum || c == '_'

/-- Whether a key is reserved: two underscores stand at its beginning. -/
def isReservedKey (key : String) : Bool :=
  ['_', '_'].isPrefixOf key.toList

/-- **A legal key**: one of the grammar that is not reserved. -/
structure LegalKey (key : String) : Prop where
  accepted : keyGrammar.accepts key.toList = true
  unreserved : isReservedKey key = false

theorem undot_eq_underscore_iff {c : Char} : undot c = '_' ↔ isSeparator c = true := by
  unfold undot isSeparator
  split
  · next hdot => simp [hdot]
  · next hdot => simp [hdot]

theorem colon_mem_exposed_iff {name : String} : ':' ∈ (exposed name).toList ↔ ':' ∈ name.toList := by
  rw [toList_exposed, List.mem_map]
  constructor
  · rintro ⟨c, hc, hcolon⟩
    unfold undot at hcolon
    split at hcolon
    · cases hcolon
    · exact hcolon ▸ hc
  · intro hcolon
    exact ⟨':', hcolon, rfl⟩

/-- Names of labels are exposed in the grammar of keys. -/
theorem accepts_key_of_label {name : String} (h : LabelName.grammar.accepts name.toList = true) :
    keyGrammar.accepts (exposed name).toList = true := by
  rw [toList_exposed]
  refine Grammar.accepts_map (fun c hc => undot_of rfl fun hdot => ?_) (fun c hc => undot_of rfl fun hdot => ?_) h
  · simpa [LabelName.grammar, keyGrammar, hdot] using hc
  · simpa [LabelName.grammar, keyGrammar, hdot] using hc

/-- A name that does not start with two separators is not exposed as a reserved key. -/
theorem isReservedKey_exposed {name : String} (h : LabelName.reservedBeginning? name.toList = none) :
    isReservedKey (exposed name) = false := by
  rw [isReservedKey, toList_exposed]
  generalize name.toList = chars at h ⊢
  rcases chars with _ | ⟨first, _ | ⟨second, rest⟩⟩
  · rfl
  · simp [List.isPrefixOf]
  · rw [Bool.eq_false_iff]
    intro hprefix
    simp only [List.map_cons, List.isPrefixOf, Bool.and_true, Bool.and_eq_true, beq_iff_eq] at hprefix
    have hfirst := undot_eq_underscore_iff.1 hprefix.1.symm
    have hsecond := undot_eq_underscore_iff.1 hprefix.2.symm
    simp [LabelName.reservedBeginning?, hfirst, hsecond] at h

/-- **Names of labels are exposed as legal keys.** -/
theorem legalKey_exposed {name : String} (h : LabelName.problem? name = none) : LegalKey (exposed name) := by
  obtain ⟨haccepts, hbeginning⟩ := LabelName.problem?_eq_none_iff.1 h
  exact ⟨accepts_key_of_label haccepts, isReservedKey_exposed hbeginning⟩

theorem legalKey_le : LegalKey "le" :=
  ⟨by decide, by decide⟩

theorem legalKey_quantile : LegalKey "quantile" :=
  ⟨by decide, by decide⟩

/-- Exposed names without colons are in the grammar of keys. -/
theorem accepts_keyGrammar_iff {name : List Char} (h : exposedGrammar.accepts name = true) :
    keyGrammar.accepts name = true ↔ ':' ∉ name := by
  cases name with
  | nil => cases h
  | cons first rest =>
    simp only [Grammar.accepts, exposedGrammar, keyGrammar, Bool.and_eq_true, List.all_eq_true,
      List.mem_cons, not_or] at h ⊢
    refine and_congr ⟨?_, fun hne => ?_⟩ ⟨fun hall hcolon => ?_, fun hcolon c hc => ?_⟩
    · rintro hfirst rfl
      revert hfirst
      decide
    · simpa [Ne.symm hne] using h.1
    · exact absurd (hall ':' hcolon) (by decide)
    · have hne : c ≠ ':' := fun heq => hcolon (heq ▸ hc)
      simpa [hne] using h.2 c hc

end Naming

open Naming

/-- **Which names of metrics are exposed as keys of the grammar**: those without a colon. -/
theorem Metadata.accepts_key_iff (m : Metadata) :
    keyGrammar.accepts m.exposedName.toList = true ↔ ':' ∉ m.name.toList := by
  rw [accepts_keyGrammar_iff m.accepts_exposedName, exposedName, colon_mem_exposed_iff]

/-! ## Keys of samples -/

theorem Labels.legalKey_of_mem_keys {l : Labels} {key : String} (h : key ∈ l.toExposedList.map (·.1)) :
    LegalKey key := by
  rw [toExposedList, List.map_map] at h
  obtain ⟨label, hlabel, rfl⟩ := List.mem_map.1 h
  exact legalKey_exposed (l.legal label hlabel)

def SampleExemplar.keys (e : SampleExemplar) : List String :=
  e.labels.map (·.1)

/-- **The keys of the labels of a sample**, and of those of its exemplar. -/
def Sample.keys (a : Sample) : List String :=
  a.labels.map (·.1) ++ a.exemplar.toList.flatMap SampleExemplar.keys

namespace Exemplar

theorem labels_toSample {e : Exemplar} {shown : SampleExemplar} (h : e.toSample = .ok shown) :
    shown.labels = e.labels.toExposedList := by
  obtain ⟨timestamp, -, h⟩ := bind_eq_ok_iff.1 h
  cases h
  rfl

theorem legalKey_of_mem_keys {e : Option Exemplar} {shown : Option SampleExemplar}
    (h : toSample? e = .ok shown) {key : String} (hkey : key ∈ shown.toList.flatMap SampleExemplar.keys) :
    LegalKey key := by
  cases e with
  | none =>
    cases h
    cases hkey
  | some e =>
    cases hshown : e.toSample with
    | error cause =>
      rw [toSample?, hshown] at h
      cases h
    | ok sample =>
      rw [toSample?, hshown] at h
      cases h
      rw [Option.toList_some, List.flatMap_singleton, SampleExemplar.keys, labels_toSample hshown] at hkey
      exact Labels.legalKey_of_mem_keys hkey

end Exemplar

namespace DataPoint

variable {p : DataPoint} {family : String} {timestamp : Option Binary64}

/-! ### Exemplars -/

theorem exemplar_of_mem_createdSamples {samples : List Sample}
    (h : p.createdSamples timestamp family = .ok samples) : ∀ a ∈ samples, a.exemplar = none := by
  obtain ⟨created, -, h⟩ := bind_eq_ok_iff.1 h
  cases created <;> cases h <;> simp [sample]

theorem exemplar_of_mem_sumSamples {sum : Datum} :
    ∀ a ∈ p.sumSamples timestamp family sum, a.exemplar = none := by
  cases sum <;> simp [sumSamples, sample]

theorem exemplar_of_mem_bucketSamples {buckets : Buckets} {samples : List Sample}
    (h : p.bucketSamples timestamp family buckets = .ok samples) : ∀ a ∈ samples, a.exemplar = none := by
  obtain ⟨totals, count, -, -, rfl⟩ := bucketSamples_eq_ok_iff.1 h
  rw [List.forall_mem_append, List.forall_mem_singleton]
  refine ⟨fun a ha => ?_, rfl⟩
  obtain ⟨bound, total, rfl⟩ := exists_of_mem_zipWith ha
  rfl

/-- **The exemplars of samples have legal keys**: they are those of a point. -/
theorem legalKey_of_mem_exemplar {samples : List Sample} (h : p.samples family = .ok samples) :
    ∀ a ∈ samples, ∀ key ∈ a.exemplar.toList.flatMap SampleExemplar.keys, LegalKey key := by
  have hbare {a : Sample} (hnone : a.exemplar = none) :
      ∀ key ∈ a.exemplar.toList.flatMap SampleExemplar.keys, LegalKey key := by simp [hnone]
  unfold DataPoint.samples at h
  obtain ⟨timestamp, -, h⟩ := bind_eq_ok_iff.1 h
  cases hmeasurement : p.measurement <;> rw [hmeasurement] at h
  case base =>
    cases h
    exact List.forall_mem_nil _
  case info =>
    cases h
    exact List.forall_mem_singleton.2 (hbare rfl)
  case counter value exemplar =>
    obtain ⟨shown, hshown, h⟩ := bind_eq_ok_iff.1 h
    obtain ⟨created, hcreated, h⟩ := bind_eq_ok_iff.1 h
    cases h
    refine List.forall_mem_cons.2 ⟨fun key hkey => Exemplar.legalKey_of_mem_keys hshown hkey, fun a ha => ?_⟩
    exact hbare (exemplar_of_mem_createdSamples hcreated a ha)
  case gauge value exemplar | unknown value exemplar =>
    obtain ⟨shown, hshown, h⟩ := bind_eq_ok_iff.1 h
    cases h
    exact List.forall_mem_singleton.2 fun key hkey => Exemplar.legalKey_of_mem_keys hshown hkey
  case histogram buckets sum exemplars =>
    obtain ⟨counts, hcounts, h⟩ := bind_eq_ok_iff.1 h
    obtain ⟨created, hcreated, h⟩ := bind_eq_ok_iff.1 h
    cases h
    simp only [List.forall_mem_append]
    exact ⟨⟨fun a ha => hbare (exemplar_of_mem_bucketSamples hcounts a ha),
      fun a ha => hbare (exemplar_of_mem_sumSamples a ha)⟩,
      fun a ha => hbare (exemplar_of_mem_createdSamples hcreated a ha)⟩
  case summary count sum quantiles exemplars =>
    obtain ⟨shares, hshares, h⟩ := bind_eq_ok_iff.1 h
    obtain ⟨created, hcreated, h⟩ := bind_eq_ok_iff.1 h
    rw [quantileSamples_eq] at hshares
    cases hshares
    cases h
    simp only [List.forall_mem_append, List.forall_mem_map]
    exact ⟨⟨⟨fun _ _ => hbare rfl, fun _ _ => hbare rfl⟩, fun a ha => hbare (exemplar_of_mem_sumSamples a ha)⟩,
      fun a ha => hbare (exemplar_of_mem_createdSamples hcreated a ha)⟩
  case stateSet states =>
    cases h
    exact List.forall_mem_map.2 fun _ _ => hbare rfl

/-! ### Labels -/

/-- An entry is added under a legal key, or under the name of the family if states are. -/
theorem legalKey_extraKey_or {value : String} (h : value ∈ p.extras) :
    LegalKey (p.pointClass.extraKey family) ∨
      p.pointClass = .stateSet ∧ p.pointClass.extraKey family = family := by
  unfold extras at h
  unfold pointClass
  cases hmeasurement : p.measurement <;> rw [hmeasurement] at h
  case base | info | counter | gauge | unknown => cases h
  case histogram => exact .inl legalKey_le
  case summary => exact .inl legalKey_quantile
  case stateSet => exact .inr ⟨rfl, rfl⟩

theorem legalKey_or_of_mem_series {a : Series} (ha : a ∈ p.series family) {key : String}
    (hkey : key ∈ a.labels.map (·.1)) : LegalKey key ∨ p.pointClass = .stateSet ∧ key = family := by
  rcases List.mem_append.1 ha with ha | ha
  · obtain ⟨value, hvalue, rfl⟩ := List.mem_map.1 ha
    rcases mem_keys_assign.1 hkey with rfl | hkey
    · exact legalKey_extraKey_or hvalue
    · exact .inl (Labels.legalKey_of_mem_keys hkey)
  · obtain ⟨ending, -, rfl⟩ := List.mem_map.1 ha
    exact .inl (Labels.legalKey_of_mem_keys hkey)

/-- **The keys of the samples of a point are legal**, apart from the name of the family, under which it has its
states. -/
theorem legalKey_or_of_mem_keys {samples : List Sample} (h : p.samples family = .ok samples) {a : Sample}
    (ha : a ∈ samples) {key : String} (hkey : key ∈ a.keys) :
    LegalKey key ∨ p.pointClass = .stateSet ∧ key = family := by
  rcases List.mem_append.1 hkey with hkey | hkey
  · refine legalKey_or_of_mem_series (a := a.series) ?_ hkey
    rw [← map_series_samples h]
    exact List.mem_map_of_mem ha
  · exact .inl (legalKey_of_mem_exemplar h a ha key hkey)

/-- A point with states has a sample with a state under the name of the family. -/
theorem exists_mem_keys_of_stateSet {samples : List Sample} (hclass : p.pointClass = .stateSet)
    (h : p.samples family = .ok samples) : ∃ a ∈ samples, family ∈ a.keys := by
  unfold DataPoint.samples at h
  obtain ⟨timestamp, -, h⟩ := bind_eq_ok_iff.1 h
  rw [pointClass] at hclass
  cases hmeasurement : p.measurement <;> rw [hmeasurement] at h hclass
  case stateSet states =>
    cases h
    obtain ⟨s, hs⟩ := List.exists_mem_of_ne_nil _ states.nonempty
    refine ⟨_, List.mem_map_of_mem hs, List.mem_append_left _ ?_⟩
    exact mem_keys_assign.2 (.inl rfl)
  all_goals cases hclass

end DataPoint

/-! ## Families -/

theorem Kind.pointClass_eq_stateSet_iff {kind : Kind} : kind.pointClass = .stateSet ↔ kind = .stateSet := by
  cases kind <;> simp [pointClass]

namespace Family

/-- **The keys of a family are accepted**: they are in the grammar of keys, and only the one under which a state set
has its states may be reserved. -/
structure KeysAccepted (f : Family) : Prop where
  accepted : ∀ a ∈ f.samples, ∀ key ∈ a.keys, keyGrammar.accepts key.toList = true
  unreserved : ∀ a ∈ f.samples, ∀ key ∈ a.keys, isReservedKey key = true → f.kind = .stateSet ∧ key = f.name

/-- The samples of a family are those of the points of its snapshot. -/
theorem exists_of_mem_samples {s : Snapshot} {f : Family} (hf : ofSnapshot s = .ok f) {a : Sample}
    (ha : a ∈ f.samples) : ∃ p ∈ s.points, p.samples f.name = .ok (p.block f.name) ∧ a ∈ p.block f.name := by
  obtain ⟨hpoints, hsamples⟩ := samples_eq_flatMap hf
  rw [hsamples] at ha
  obtain ⟨p, hp, ha⟩ := List.mem_flatMap.1 ha
  exact ⟨p, hp, hpoints p hp, ha⟩

/-- **The keys of a family are legal**, apart from the one of states. -/
theorem legalKey_or_of_mem_keys {s : Snapshot} {f : Family} (hf : ofSnapshot s = .ok f) {a : Sample}
    (ha : a ∈ f.samples) {key : String} (hkey : key ∈ a.keys) :
    LegalKey key ∨ s.kind = .stateSet ∧ key = f.name := by
  obtain ⟨p, hp, hblock, ha⟩ := exists_of_mem_samples hf ha
  rw [← Kind.pointClass_eq_stateSet_iff, ← s.classed p hp]
  exact DataPoint.legalKey_or_of_mem_keys hblock ha hkey

/-- A state set that has points has its states under its name. -/
theorem exists_mem_keys_of_stateSet {s : Snapshot} {f : Family} (hf : ofSnapshot s = .ok f)
    (hkind : s.kind = .stateSet) (hpoints : s.points ≠ []) : ∃ a ∈ f.samples, f.name ∈ a.keys := by
  obtain ⟨hblocks, hsamples⟩ := samples_eq_flatMap hf
  obtain ⟨p, hp⟩ := List.exists_mem_of_ne_nil _ hpoints
  have hclass : p.pointClass = .stateSet := by rw [s.classed p hp, hkind, Kind.pointClass]
  obtain ⟨a, ha, hkey⟩ := DataPoint.exists_mem_keys_of_stateSet hclass (hblocks p hp)
  refine ⟨a, ?_, hkey⟩
  rw [hsamples]
  exact List.mem_flatMap.2 ⟨p, hp, ha⟩

/-- The name of the family of a state set is in the grammar of keys if the metric has no colon in its name. -/
theorem accepts_name_iff_of_stateSet {s : Snapshot} {f : Family} (hf : ofSnapshot s = .ok f)
    (hkind : s.kind = .stateSet) : keyGrammar.accepts f.name.toList = true ↔ ':' ∉ s.name.toList := by
  rw [name_of_ofSnapshot hf, Snapshot.familyName_of_stateSet (Kind.pointClass_eq_stateSet_iff.2 hkind)]
  exact s.metadata.accepts_key_iff

theorem keysAccepted_iff {s : Snapshot} {f : Family} (hf : ofSnapshot s = .ok f) :
    f.KeysAccepted ↔ (s.kind = .stateSet → s.points ≠ [] → ':' ∉ s.name.toList) := by
  constructor
  · intro haccepted hkind hpoints
    obtain ⟨a, ha, hkey⟩ := exists_mem_keys_of_stateSet hf hkind hpoints
    exact (accepts_name_iff_of_stateSet hf hkind).1 (haccepted.accepted a ha f.name hkey)
  · intro hcolon
    constructor
    · intro a ha key hkey
      rcases legalKey_or_of_mem_keys hf ha hkey with hlegal | ⟨hkind, rfl⟩
      · exact hlegal.accepted
      · obtain ⟨p, hp, -⟩ := exists_of_mem_samples hf ha
        exact (accepts_name_iff_of_stateSet hf hkind).2 (hcolon hkind (List.ne_nil_of_mem hp))
    · intro a ha key hkey hreserved
      rw [(ofSnapshot_eq_ok_iff.1 hf).2.2.2.1]
      refine (legalKey_or_of_mem_keys hf ha hkey).resolve_left fun hlegal => ?_
      rw [hlegal.unreserved] at hreserved
      cases hreserved

/-- **Which metrics are exposed under keys of the grammar**, if all timestamps that scrapes see are in range: all but
state sets whose name has a colon. All other keys are legal. -/
theorem exposed_keys_iff {s : Snapshot}
    (hshown : ∀ p ∈ s.points, ∀ t ∈ p.shownTimestamps, t.number.InRange) :
    ((∃ f, ofSnapshot s = .ok f) ↔ ∀ p ∈ s.points, p.measurement.CountsAdd) ∧
      ∀ f, ofSnapshot s = .ok f →
        (∀ a ∈ f.samples, ∀ key ∈ a.keys, LegalKey key ∨ s.kind = .stateSet ∧ key = f.name) ∧
          (f.KeysAccepted ↔ (s.kind = .stateSet → s.points ≠ [] → ':' ∉ s.name.toList)) := by
  refine ⟨exists_ofSnapshot_iff_of_shown hshown, fun f hf => ⟨fun a ha key hkey => ?_, keysAccepted_iff hf⟩⟩
  exact legalKey_or_of_mem_keys hf ha hkey

end Family

/-! ### A name without a colon and one with a colon -/

namespace Snapshot

def running (name : String) (legal : MetricName.problem? name = none) : Snapshot where
  kind := .stateSet
  metadata := ⟨name, none, none, legal⟩
  points := [.ofParts .empty .zero .zero (.stateSet ⟨[⟨"on", true⟩], by decide, by decide, by decide⟩)]
  unitAllowed h := by cases h
  classed p hp := by
    rw [List.mem_singleton.1 hp]
    rfl
  ordered := chained_singleton _

/-- A job has no timestamps and no buckets, so nothing can be too large. -/
theorem shown_running {name : String} {legal : MetricName.problem? name = none} :
    ∀ p ∈ (running name legal).points,
      (∀ t ∈ p.shownTimestamps, t.number.InRange) ∧ p.measurement.CountsAdd := by
  intro p hp
  obtain rfl := List.mem_singleton.1 hp
  refine ⟨fun t ht => ?_, trivial⟩
  obtain rfl := List.mem_singleton.1 ht
  exact Number.inRange_of_le (Nat.zero_le _)

def colonNamed : Snapshot :=
  running "job:state" (by decide)

end Snapshot

namespace Family

open Snapshot (running colonNamed shown_running)

/-- The states of a state set may be exposed under a reserved key. -/
theorem exposed_keys_running :
    ∃ f, ofSnapshot (running "_.job" (by decide)) = .ok f ∧ f.name = "__job" ∧ f.KeysAccepted := by
  obtain ⟨hexists, hkeys⟩ := exposed_keys_iff fun p hp => (shown_running p hp).1
  obtain ⟨f, hf⟩ := hexists.2 fun p hp => (shown_running p hp).2
  refine ⟨f, hf, ?_, (hkeys f hf).2.2 fun _ _ => by decide⟩
  rw [name_of_ofSnapshot hf]
  decide

/-- **States are exposed under a name with a colon**, which is not in the grammar of keys. -/
theorem colon_state_exposed :
    (∀ p ∈ colonNamed.points, ∀ t ∈ p.shownTimestamps, t.number.InRange) ∧
      keyGrammar.accepts "job:state".toList = false ∧
      ∃ f, ofSnapshot colonNamed = .ok f ∧ (∃ a ∈ f.samples, "job:state" ∈ a.keys) ∧ ¬f.KeysAccepted := by
  have hconvertible : ∀ p ∈ colonNamed.points, p.Convertible :=
    fun p hp => DataPoint.convertible_iff.2 (shown_running p hp)
  obtain ⟨f, hf⟩ := exists_ofSnapshot_iff.2 hconvertible
  have hname : f.name = "job:state" := by
    rw [name_of_ofSnapshot hf]
    decide
  refine ⟨fun p hp => (shown_running p hp).1, by decide, f, hf, ?_, ?_⟩
  · exact hname ▸ exists_mem_keys_of_stateSet hf rfl (List.cons_ne_nil _ _)
  · rw [keysAccepted_iff hf]
    exact fun h => h rfl (List.cons_ne_nil _ _) (by decide)

end Family

end Telemetry
