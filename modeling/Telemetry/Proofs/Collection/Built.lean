import Telemetry.Builder.Point
import Telemetry.Builder.Snapshot
import Telemetry.Proofs.Labels.Union
import Telemetry.Proofs.Pipeline.Collecting
import Telemetry.Proofs.Point.Fields
import Telemetry.Proofs.Snapshot.Merging

/-!
# What is built

Points, snapshots and collections are made by constructors, by builders, and from one another by merging, renaming and
relabelling. Whichever operations lead to a collection, it is well-formed: its snapshots are in the order of their
names and found by them, and the points of each are in order.

Most of this holds of every value by its type. Only the order of points asks for something else, timestamps that are
numbers, and this is what every operation has to keep. It is all that distinguishes what can be built: exactly the
timed points, snapshots and collections can be.

## Main definitions

* `Artifact`, `Built`: what can be built, and what has been built by any number of operations
* `Artifact.Timed`: artifacts whose timestamps are numbers
* `Collection.WellFormed`, `Snapshot.WellFormed`, `Labels.WellFormed`: well-formed collections and their parts

## Main results

* `Built.timed`: what has been built is timed
* `built_point_iff`, `built_snapshot_iff`, `built_collection_iff`: what is timed can be built
* `Collection.wellFormed`: timed collections are well-formed
* `Built.collection_wellFormed`: every collection that has been built is well-formed
-/

namespace Telemetry

/-! ## Builders -/

namespace Builder

variable {δ β : Type} {b b' : Builder δ}

theorem of_change_eq_ok {f : δ → Except Error δ} (h : b.change f = .ok b') : f b.draft = .ok b'.draft := by
  rw [change_eq] at h
  split at h
  · cases h
  · obtain ⟨draft, hdraft, h⟩ := bind_eq_ok_iff.1 h
    cases h
    exact hdraft

/-- What is built is made of the draft, which stays as it is. -/
theorem of_build_eq_ok {make : δ → Except Error β} {x : β} (h : (b.build make).1 = .ok x) :
    make b.draft = .ok x := by
  rw [build_eq] at h
  split at h
  · cases h
  · exact h

@[simp] theorem draft_build (make : δ → Except Error β) (b : Builder δ) :
    (b.build make).2.draft = b.draft := by
  rw [build_eq]
  split <;> rfl

end Builder

namespace PointBuilder

variable {β : Type} {t : PointTarget β} {b b' : PointBuilder} {fields : List Field}

/-- Fields that are set on a draft are timed if those on it are. -/
theorem allTimed_of_setFields {draft draft' : PointDraft} (hdraft : Field.AllTimed draft.fields)
    (hfields : Field.AllTimed fields) (h : PointDraft.setFields t fields draft = .ok draft') :
    Field.AllTimed draft'.fields := by
  unfold PointDraft.setFields at h
  split at h
  · cases h
  · cases h
    exact hdraft.insertAll hfields

theorem allTimed_of_set (hb : Field.AllTimed b.draft.fields) (hfields : Field.AllTimed fields)
    (h : b.set t fields = .ok b') : Field.AllTimed b'.draft.fields := by
  obtain ⟨-, -, h⟩ := bind_eq_ok_iff.1 h
  exact allTimed_of_setFields hb hfields (Builder.of_change_eq_ok h)

theorem allTimed_of_setField {f : Field} (hb : Field.AllTimed b.draft.fields) (hf : f.isTimed = true)
    (h : b.change (PointDraft.setFields t [f]) = .ok b') : Field.AllTimed b'.draft.fields := by
  refine allTimed_of_setFields hb (fun g hg => ?_) (Builder.of_change_eq_ok h)
  rw [List.mem_singleton.1 hg]
  exact hf

theorem fields_of_labels {labels : LabelArgument} (h : b.labels labels = .ok b') :
    b'.draft.fields = b.draft.fields := by
  obtain ⟨extra, -, hdraft⟩ := bind_eq_ok_iff.1 (Builder.of_change_eq_ok h)
  rw [← Except.ok.inj hdraft]

theorem fields_of_label {name value : Datum} (h : b.label name value = .ok b') :
    b'.draft.fields = b.draft.fields := by
  have hdraft := Builder.of_change_eq_ok h
  rw [← Except.ok.inj hdraft]

/-- **A point that is built of timed fields is timed.** -/
theorem isTimed_of_build {c : PointClass} {p : DataPoint} (hb : Field.AllTimed b.draft.fields)
    (h : (b.build (.ofClass c)).1 = .ok p) : p.isTimed = true := by
  have hmake := Builder.of_build_eq_ok h
  obtain ⟨fields, hfields, hmake⟩ := bind_eq_ok_iff.1 hmake
  obtain ⟨labels, -, hfields⟩ := bind_eq_ok_iff.1 hfields
  cases hfields
  exact DataPoint.isTimed_of_make (hb.insert rfl) hmake

end PointBuilder

/-! ## Snapshots and collections -/

namespace Snapshot

variable {s t : Snapshot}

/-- **A snapshot of timed points is timed.** -/
theorem timed_of_make {kind : Datum} {metadata : Option Metadata} {points : List PointArgument}
    (hpoints : ∀ p, .point p ∈ points → p.isTimed = true)
    (h : make kind metadata (some points) = .ok s) : s.Timed := by
  intro p hp
  rw [(make_eq_ok_iff.1 h).2.2.2, mem_settle] at hp
  obtain ⟨a, ha, hpoint⟩ := List.mem_filterMap.1 hp
  rw [PointArgument.point?_eq_some_iff.1 hpoint] at ha
  exact hpoints p ha

theorem timed_of_withNamePrefix {lead : String} (hs : s.Timed) (h : s.withNamePrefix lead = .ok t) :
    t.Timed := by
  apply (Change.lawful_prefixed lead).timed hs
  rw [Change.apply_prefixed]
  exact h

theorem timed_of_withLabels {labels : LabelArgument} (hs : s.Timed) (h : s.withLabels labels = .ok t) :
    t.Timed := by
  apply (Change.lawful_labelled labels).timed hs
  rw [Change.apply_labelled]
  exact h

end Snapshot

namespace SnapshotBuilder

variable {k : Kind} {b b' : SnapshotBuilder}

/-- Only the call for a point changes the points. -/
theorem points_of_change {f : SnapshotDraft → Except Error SnapshotDraft}
    (hf : ∀ draft draft', f draft = .ok draft' → draft'.points = draft.points)
    (h : b.change f = .ok b') : b'.draft.points = b.draft.points :=
  hf _ _ (Builder.of_change_eq_ok h)

theorem points_of_name {name : Datum} (h : b.name name = .ok b') : b'.draft.points = b.draft.points := by
  apply points_of_change ?_ h
  intro draft draft' hdraft
  rw [← Except.ok.inj hdraft]

theorem points_of_help {help : Option String} (h : b.help help = .ok b') :
    b'.draft.points = b.draft.points := by
  apply points_of_change ?_ h
  intro draft draft' hdraft
  rw [← Except.ok.inj hdraft]

theorem points_of_unit {unit : UnitArgument} (h : b.unit k unit = .ok b') :
    b'.draft.points = b.draft.points := by
  apply points_of_change ?_ h
  intro draft draft' hdraft
  unfold SnapshotDraft.setUnit at hdraft
  split at hdraft
  · rw [← Except.ok.inj hdraft]
  · cases hdraft

theorem points_of_set {names : List String} (h : b.set names = .ok b') :
    b'.draft.points = b.draft.points := by
  obtain ⟨-, -, h⟩ := bind_eq_ok_iff.1 h
  apply points_of_change ?_ h
  intro draft draft' hdraft
  rw [Except.ok.inj hdraft]

theorem points_of_point {a : PointArgument} (h : b.point a = .ok b') :
    b'.draft.points = b.draft.points ++ [a] := by
  have hdraft := Builder.of_change_eq_ok h
  rw [← Except.ok.inj hdraft]

/-- **A snapshot that is built of timed points is timed.** -/
theorem timed_of_build {s : Snapshot} (hb : ∀ p, .point p ∈ b.draft.points → p.isTimed = true)
    (h : (b.build k).1 = .ok s) : s.Timed := by
  have hmake := Builder.of_build_eq_ok h
  obtain ⟨given, hgiven, hmake⟩ := bind_eq_ok_iff.1 hmake
  obtain ⟨metadata, -, hgiven⟩ := bind_eq_ok_iff.1 hgiven
  cases hgiven
  exact Snapshot.timed_of_make hb hmake

end SnapshotBuilder

namespace Collection

variable {c d : Collection}

/-- **Collections whose timestamps are numbers.** -/
def Timed (c : Collection) : Prop :=
  ∀ s ∈ c.snapshots, s.Timed

theorem mem_of_mem_split {s : Snapshot} {arguments : List SnapshotArgument}
    (h : s ∈ (SnapshotArgument.split arguments).1) : .snapshot s ∈ arguments := by
  induction arguments with
  | nil => cases h
  | cons a rest ih =>
    cases a with
    | datum d => cases h
    | snapshot t =>
      rcases List.mem_cons.1 h with rfl | h
      · exact List.mem_cons_self
      · exact List.mem_cons_of_mem _ (ih h)

/-- **A collection of timed snapshots is timed.** -/
theorem timed_of_ofArguments {arguments : List SnapshotArgument}
    (harguments : ∀ s, .snapshot s ∈ arguments → s.Timed) (h : ofArguments arguments = .ok c) : c.Timed := by
  unfold ofArguments at h
  split at h
  · cases h
  · next snapshots hsplit =>
    refine (sameContent_of_ofSnapshots h).timed fun s hs => harguments s (mem_of_mem_split ?_)
    rw [hsplit]
    exact hs

/-- **A collection that timed snapshots are merged into is timed.** -/
theorem timed_of_mergedArguments {arguments : List SnapshotArgument}
    (harguments : ∀ s, .snapshot s ∈ arguments → s.Timed) (h : mergedArguments arguments = .ok c) :
    c.Timed := by
  have hsnapshots : ∀ s ∈ (SnapshotArgument.split arguments).1, s.Timed := by
    intro s hs
    exact harguments s (mem_of_mem_split hs)
  obtain ⟨distinct, hdistinct, h⟩ := bind_eq_ok_iff.1 h
  have hcontent : SameContent distinct (SnapshotArgument.split arguments).1 := by
    have hnil : Distinct [] := .nil
    obtain ⟨known, hknown, -, hcontent⟩ | ⟨e, he, -⟩ :=
      absorbAll_cases (SnapshotArgument.split arguments).1 hnil
    · cases hknown.symm.trans hdistinct
      exact hcontent
    · cases he.symm.trans hdistinct
  split at h
  · cases h
  · exact ((sameContent_of_ofSnapshots h).trans hcontent).timed hsnapshots

/-- Changed snapshots of a timed collection make a timed one. -/
theorem timed_of_changed {change : Change} (hchange : change.Lawful) (hc : c.Timed)
    (h : changed change.apply c = .ok d) : d.Timed := by
  obtain ⟨snapshots, hsnapshots, h⟩ := bind_eq_ok_iff.1 h
  exact (sameContent_of_ofSnapshots h).timed
    (Change.Image.timed hchange (changeAll_eq_ok_iff.1 hsnapshots) hc)

theorem timed_of_withNamePrefix {lead : String} (hc : c.Timed) (h : c.withNamePrefix lead = .ok d) :
    d.Timed := by
  apply timed_of_changed (Change.lawful_prefixed lead) hc
  rw [Change.apply_prefixed]
  exact h

theorem timed_of_withLabels {labels : LabelArgument} (hc : c.Timed) (h : c.withLabels labels = .ok d) :
    d.Timed := by
  apply timed_of_changed (Change.lawful_labelled labels) hc
  rw [Change.apply_labelled]
  exact h

end Collection

/-! ## What is built -/

/-- **What can be built**: points, snapshots and collections, and the builders on the way to them. -/
inductive Artifact where
  | pointBuilder (c : PointClass) (b : PointBuilder)
  | point (p : DataPoint)
  | snapshotBuilder (k : Kind) (b : SnapshotBuilder)
  | snapshot (s : Snapshot)
  | collection (c : Collection)

/-- **What has been built** by any number of operations, where the timestamps that are handed over are numbers. Label
sets, metadata and exemplars are well-formed by their types, so any of them may be handed over. -/
inductive Built : Artifact → Prop
  -- Points
  | point {c : PointClass} {fields : List Field} {p : DataPoint} :
      Field.AllTimed fields → DataPoint.make c fields = .ok p → Built (.point p)
  | pointWithLabels {p q : DataPoint} {labels : LabelArgument} :
      Built (.point p) → p.withLabels labels = .ok q → Built (.point q)
  | pointOf {s : Snapshot} {p : DataPoint} : Built (.snapshot s) → p ∈ s.points → Built (.point p)
  -- Builders of points
  | newPointBuilder (c : PointClass) : Built (.pointBuilder c (.new (.ofClass c)))
  | setFields {c : PointClass} {b b' : PointBuilder} {fields : List Field} :
      Built (.pointBuilder c b) → Field.AllTimed fields →
        b.set (.ofClass c) fields = .ok b' → Built (.pointBuilder c b')
  | setLabels {c : PointClass} {b b' : PointBuilder} {labels : LabelArgument} :
      Built (.pointBuilder c b) → b.labels labels = .ok b' → Built (.pointBuilder c b')
  | addLabel {c : PointClass} {b b' : PointBuilder} {name value : Datum} :
      Built (.pointBuilder c b) → b.label name value = .ok b' → Built (.pointBuilder c b')
  | setCreated {c : PointClass} {b b' : PointBuilder} {millis : Datum} :
      Built (.pointBuilder c b) → millis.isTimed = true →
        b.created (.ofClass c) millis = .ok b' → Built (.pointBuilder c b')
  | setScrape {c : PointClass} {b b' : PointBuilder} {millis : Datum} :
      Built (.pointBuilder c b) → millis.isTimed = true →
        b.scrape (.ofClass c) millis = .ok b' → Built (.pointBuilder c b')
  | builtPoint {c : PointClass} {b : PointBuilder} {p : DataPoint} :
      Built (.pointBuilder c b) → (b.build (.ofClass c)).1 = .ok p → Built (.point p)
  | consumedPointBuilder {c : PointClass} {b : PointBuilder} :
      Built (.pointBuilder c b) → Built (.pointBuilder c (b.build (.ofClass c)).2)
  -- Snapshots
  | snapshot {kind : Datum} {metadata : Option Metadata} {points : List PointArgument} {s : Snapshot} :
      (∀ p, .point p ∈ points → Built (.point p)) →
        Snapshot.make kind metadata (some points) = .ok s → Built (.snapshot s)
  | snapshotOfKind {kind : Kind} {metadata : Option Metadata} {points : List PointArgument} {s : Snapshot} :
      (∀ p, .point p ∈ points → Built (.point p)) →
        Snapshot.makeOf kind metadata (some points) = .ok s → Built (.snapshot s)
  | mergedSnapshot {s t r : Snapshot} :
      Built (.snapshot s) → Built (.snapshot t) → s.merge t = .ok r → Built (.snapshot r)
  | snapshotWithNamePrefix {s t : Snapshot} {lead : String} :
      Built (.snapshot s) → s.withNamePrefix lead = .ok t → Built (.snapshot t)
  | snapshotWithLabels {s t : Snapshot} {labels : LabelArgument} :
      Built (.snapshot s) → s.withLabels labels = .ok t → Built (.snapshot t)
  | snapshotOf {c : Collection} {s : Snapshot} :
      Built (.collection c) → s ∈ c.snapshots → Built (.snapshot s)
  -- Builders of snapshots
  | newSnapshotBuilder (k : Kind) : Built (.snapshotBuilder k .new)
  | setName {k : Kind} {b b' : SnapshotBuilder} {name : Datum} :
      Built (.snapshotBuilder k b) → b.name name = .ok b' → Built (.snapshotBuilder k b')
  | setHelp {k : Kind} {b b' : SnapshotBuilder} {help : Option String} :
      Built (.snapshotBuilder k b) → b.help help = .ok b' → Built (.snapshotBuilder k b')
  | setUnit {k : Kind} {b b' : SnapshotBuilder} {unit : UnitArgument} :
      Built (.snapshotBuilder k b) → b.unit k unit = .ok b' → Built (.snapshotBuilder k b')
  | setOther {k : Kind} {b b' : SnapshotBuilder} {names : List String} :
      Built (.snapshotBuilder k b) → b.set names = .ok b' → Built (.snapshotBuilder k b')
  | addPoint {k : Kind} {b b' : SnapshotBuilder} {a : PointArgument} :
      Built (.snapshotBuilder k b) → (∀ p, a = .point p → Built (.point p)) →
        b.point a = .ok b' → Built (.snapshotBuilder k b')
  | builtSnapshot {k : Kind} {b : SnapshotBuilder} {s : Snapshot} :
      Built (.snapshotBuilder k b) → (b.build k).1 = .ok s → Built (.snapshot s)
  | consumedSnapshotBuilder {k : Kind} {b : SnapshotBuilder} :
      Built (.snapshotBuilder k b) → Built (.snapshotBuilder k (b.build k).2)
  -- Collections
  | collection {arguments : List SnapshotArgument} {c : Collection} :
      (∀ s, .snapshot s ∈ arguments → Built (.snapshot s)) →
        Collection.ofArguments arguments = .ok c → Built (.collection c)
  | mergedCollection {arguments : List SnapshotArgument} {c : Collection} :
      (∀ s, .snapshot s ∈ arguments → Built (.snapshot s)) →
        Collection.mergedArguments arguments = .ok c → Built (.collection c)
  | collectionWithNamePrefix {c d : Collection} {lead : String} :
      Built (.collection c) → c.withNamePrefix lead = .ok d → Built (.collection d)
  | collectionWithLabels {c d : Collection} {labels : LabelArgument} :
      Built (.collection c) → c.withLabels labels = .ok d → Built (.collection d)

/-- **Artifacts whose timestamps are numbers.** -/
def Artifact.Timed : Artifact → Prop
  | .pointBuilder _ b => Field.AllTimed b.draft.fields
  | .point p => p.isTimed = true
  | .snapshotBuilder _ b => ∀ p, .point p ∈ b.draft.points → p.isTimed = true
  | .snapshot s => s.Timed
  | .collection c => c.Timed

namespace Artifact.Timed

variable {c : PointClass} {k : Kind}

theorem of_fields_eq {b b' : PointBuilder} (hb : (Artifact.pointBuilder c b).Timed)
    (hfields : b'.draft.fields = b.draft.fields) : (Artifact.pointBuilder c b').Timed := by
  intro f hf
  rw [hfields] at hf
  exact hb f hf

theorem of_points_eq {b b' : SnapshotBuilder} (hb : (Artifact.snapshotBuilder k b).Timed)
    (hpoints : b'.draft.points = b.draft.points) : (Artifact.snapshotBuilder k b').Timed := by
  intro p hp
  rw [hpoints] at hp
  exact hb p hp

end Artifact.Timed

/-- **What has been built is timed.** -/
theorem Built.timed {a : Artifact} (h : Built a) : a.Timed := by
  -- Induction on the last operation. Calls that leave fields and points alone are the same case.
  induction h with
  | point hfields h => exact DataPoint.isTimed_of_make hfields h
  | pointWithLabels _ h ih => exact DataPoint.isTimed_of_withLabels ih h
  | pointOf _ hp ih => exact ih _ hp
  | newPointBuilder c =>
    intro f hf
    cases hf
  | setFields _ hfields h ih => exact PointBuilder.allTimed_of_set ih hfields h
  | setLabels _ h ih => exact ih.of_fields_eq (PointBuilder.fields_of_labels h)
  | addLabel _ h ih => exact ih.of_fields_eq (PointBuilder.fields_of_label h)
  | setCreated _ hmillis h ih => exact PointBuilder.allTimed_of_setField (f := .created _) ih hmillis h
  | setScrape _ hmillis h ih => exact PointBuilder.allTimed_of_setField (f := .scrape _) ih hmillis h
  | builtPoint _ h ih => exact PointBuilder.isTimed_of_build ih h
  | consumedPointBuilder _ ih => exact ih.of_fields_eq (congrArg _ (Builder.draft_build _ _))
  | snapshot _ h ih => exact Snapshot.timed_of_make ih h
  | snapshotOfKind _ h ih => exact Snapshot.timed_of_make ih h
  | mergedSnapshot _ _ h ihs iht => exact Snapshot.timed_of_merge ihs iht h
  | snapshotWithNamePrefix _ h ih => exact Snapshot.timed_of_withNamePrefix ih h
  | snapshotWithLabels _ h ih => exact Snapshot.timed_of_withLabels ih h
  | snapshotOf _ hs ih => exact ih _ hs
  | newSnapshotBuilder k =>
    intro p hp
    cases hp
  | setName _ h ih => exact ih.of_points_eq (SnapshotBuilder.points_of_name h)
  | setHelp _ h ih => exact ih.of_points_eq (SnapshotBuilder.points_of_help h)
  | setUnit _ h ih => exact ih.of_points_eq (SnapshotBuilder.points_of_unit h)
  | setOther _ h ih => exact ih.of_points_eq (SnapshotBuilder.points_of_set h)
  | addPoint _ _ h ih iha =>
    intro p hp
    rw [SnapshotBuilder.points_of_point h] at hp
    rcases List.mem_append.1 hp with hp | hp
    · exact ih p hp
    · exact iha p (List.mem_singleton.1 hp).symm
  | builtSnapshot _ h ih => exact SnapshotBuilder.timed_of_build ih h
  | consumedSnapshotBuilder _ ih => exact ih.of_points_eq (congrArg _ (Builder.draft_build _ _))
  | collection _ h ih => exact Collection.timed_of_ofArguments ih h
  | mergedCollection _ h ih => exact Collection.timed_of_mergedArguments ih h
  | collectionWithNamePrefix _ h ih => exact Collection.timed_of_withNamePrefix ih h
  | collectionWithLabels _ h ih => exact Collection.timed_of_withLabels ih h

/-! ### What is timed can be built -/

/-- **Exactly the timed points can be built.** -/
theorem built_point_iff {p : DataPoint} : Built (.point p) ↔ p.isTimed = true := by
  constructor
  · exact fun h => h.timed
  · intro hp
    have hfields := (DataPoint.allTimed_fields hp).insert (f := .labels (.labels p.labels)) rfl
    exact .point hfields (p.withLabels_labels p.labels)

/-- **Exactly the timed snapshots can be built.** -/
theorem built_snapshot_iff {s : Snapshot} : Built (.snapshot s) ↔ s.Timed := by
  constructor
  · exact fun h => h.timed
  · intro hs
    refine .snapshot (fun p hp => ?_) s.make_parts
    obtain ⟨q, hq, heq⟩ := List.mem_map.1 hp
    cases heq
    exact built_point_iff.2 (hs p hq)

/-- **Exactly the timed collections can be built.** -/
theorem built_collection_iff {c : Collection} : Built (.collection c) ↔ c.Timed := by
  constructor
  · exact fun h => h.timed
  · intro hc
    have hmake : Collection.ofArguments (c.snapshots.map .snapshot) = .ok c := by
      rw [Collection.ofArguments, SnapshotArgument.split_snapshots]
      exact c.ofSnapshots_snapshots
    refine .collection (fun s hs => ?_) hmake
    obtain ⟨t, ht, heq⟩ := List.mem_map.1 hs
    cases heq
    exact built_snapshot_iff.2 (hc s ht)

/-! ## Well-formed collections -/

/-- **Well-formed label sets**: legal names in the order of their exposed forms, without ties, each with a value. -/
structure Labels.WellFormed (l : Labels) : Prop where
  legal : ∀ name ∈ l.names, LabelName.problem? name = none
  exposed : l.exposedNames = l.names.map Naming.exposed
  increasing : l.exposedNames.Pairwise (· < ·)
  length_values : l.values.length = l.names.length
  length_exposedNames : l.exposedNames.length = l.names.length

/-- **Well-formed snapshots**: a legal name, no unit where none is allowed, and points of the class of the kind, in
order, with well-formed labels. -/
structure Snapshot.WellFormed (s : Snapshot) : Prop where
  legal : MetricName.problem? s.name = none
  exposed : s.exposedName = Naming.exposed s.name
  unitless : s.kind = .info ∨ s.kind = .stateSet → s.metadata.unit = none
  classed : ∀ p ∈ s.points, p.pointClass = s.kind.pointClass
  ordered : s.points.Pairwise fun p q => (DataPoint.order p q).isLE = true
  labels : ∀ p ∈ s.points, p.labels.WellFormed

/-- **Well-formed collections**: well-formed snapshots in the order of their exposed names, without ties, each of which
is found by its name, and nothing else. -/
structure Collection.WellFormed (c : Collection) : Prop where
  increasing : c.exposedNames.Pairwise (· < ·)
  get?_eq_some_iff : ∀ name s, c.get? name = some s ↔ s ∈ c.snapshots ∧ s.exposedName = name
  snapshots : ∀ s ∈ c.snapshots, s.WellFormed

theorem Labels.wellFormed (l : Labels) : l.WellFormed where
  legal name hname := by
    obtain ⟨label, hlabel, rfl⟩ := List.mem_map.1 hname
    exact l.legal label hlabel
  exposed := by
    rw [exposedNames, names, List.map_map]
    rfl
  increasing := List.pairwise_map.2 l.pairwise_exposedName_lt
  length_values := by rw [values, names, List.length_map, List.length_map]
  length_exposedNames := by rw [exposedNames, names, List.length_map, List.length_map]

theorem Snapshot.wellFormed {s : Snapshot} (hs : s.Timed) : s.WellFormed where
  legal := s.metadata.legal
  exposed := rfl
  unitless hkind := by
    apply s.unit_eq_none
    rcases hkind with hkind | hkind
    · rw [hkind]
      rfl
    · rw [hkind]
      rfl
  classed := s.classed
  ordered := s.pairwise_order hs
  labels p _ := p.labels.wellFormed

/-- What is found under a name is the snapshot of the name. -/
theorem Collection.get?_eq_some_iff {c : Collection} {name : String} {s : Snapshot} :
    c.get? name = some s ↔ s ∈ c.snapshots ∧ s.exposedName = name :=
  find?_key_eq_some_iff fun _ hs _ ht => c.distinct_snapshots.eq_of_exposedName hs ht

theorem Collection.wellFormed {c : Collection} (hc : c.Timed) : c.WellFormed where
  increasing := c.pairwise_exposedNames
  get?_eq_some_iff _ _ := Collection.get?_eq_some_iff
  snapshots s hs := Snapshot.wellFormed (hc s hs)

/-- **Every collection that has been built is well-formed.** -/
theorem Built.collection_wellFormed {c : Collection} (h : Built (.collection c)) : c.WellFormed :=
  Collection.wellFormed h.timed

open Collection (firstHalf secondHalf) in
/-- The collection into which two halves are merged has been built, and is well-formed. -/
theorem Built.collection_wellFormed_halves :
    ∃ c, Collection.mergedArguments [.snapshot firstHalf, .snapshot secondHalf] = .ok c ∧
      Built (.collection c) ∧ c.WellFormed := by
  have hagreeing : Collection.Agreeing [firstHalf, secondHalf] := by decide
  obtain ⟨c, hc⟩ := Collection.exists_merged_iff.2 hagreeing
  have hhalves : ∀ s, .snapshot s ∈ [SnapshotArgument.snapshot firstHalf, .snapshot secondHalf] →
      Built (.snapshot s) := by
    intro s hs
    simp only [List.mem_cons, SnapshotArgument.snapshot.injEq, List.not_mem_nil, or_false] at hs
    obtain rfl | rfl := hs
    · exact built_snapshot_iff.2 (by decide)
    · exact built_snapshot_iff.2 (by decide)
  have hbuilt : Built (.collection c) := .mergedCollection hhalves hc
  exact ⟨c, hc, hbuilt, Built.collection_wellFormed hbuilt⟩

end Telemetry
