import Telemetry.Proofs.Family.Keys
import Telemetry.Proofs.Labels.Clash

/-!
# Observations that stay apart

Instruments tell the observations of a metric apart by their attributes. The attributes of a point are its labels, so
points with different labels are observed apart. A point of a state set is observed once for each of its states, and
the state is an attribute under the name of the metric. There it takes the place of a label of that name, so points
whose labels differ in that label only may be observed under the same attributes.

## Main definitions

* `Observation.alike`: observations that instruments do not tell apart
* `DataPoint.stateNames`: the states of a point

## Main results

* `Labels.sameEntries_toList_iff`: different labels are different attributes
* `DataPoint.forall_not_alike_iff`: when the observations of two points are told apart
* `Snapshot.pairwise_observations_iff`: when all observations of a snapshot are told apart
* `Snapshot.tasksByName_observed_alike`: they are not always
-/

namespace Telemetry

/-- **Whether instruments do not tell observations apart**: their attributes are the same, in whatever order. -/
def Observation.alike (a b : Observation) : Bool :=
  sameEntries a.attributes b.attributes

/-! ## Labels as attributes -/

namespace Labels

/-- No name stands twice among the attributes that are labels. -/
theorem nodup_keys_toList (l : Labels) : (l.toList.map (·.1)).Nodup := by
  have hexposed := l.nodup_exposed_names
  rw [← Function.comp_def, ← List.map_map] at hexposed
  exact .of_map Naming.exposed hexposed

theorem lookup_toList (l : Labels) (name : String) : l.toList.lookup name = l.get? name := by
  refine Option.ext fun value => ?_
  rw [get?_eq_some_iff, ← mem_toList_iff]
  exact ⟨mem_of_lookup_eq_some, lookup_eq_some_of_mem l.nodup_keys_toList⟩

/-- **Different labels are different attributes.** -/
theorem sameEntries_toList_iff {l m : Labels} : sameEntries l.toList m.toList = true ↔ l = m := by
  rw [sameEntries_iff_perm l.nodup_keys_toList m.nodup_keys_toList]
  constructor
  · intro hperm
    refine eq_of_mem_iff fun x => ?_
    rw [← mem_toList_iff, ← mem_toList_iff]
    exact hperm.mem_iff
  · rintro rfl
    exact List.Perm.refl _

theorem get?_eq_none_of_not_mem_names {l : Labels} {name : String} (h : name ∉ l.names) : l.get? name = none := by
  refine Option.eq_none_iff_forall_ne_some.2 fun value hvalue => h ?_
  exact List.mem_map_of_mem (f := Label.name) (get?_eq_some_iff.1 hvalue)

/-- Different label sets that both lack a name differ in a label of another name. -/
theorem exists_get?_ne {l m : Labels} {name : String} (hne : l ≠ m) (hl : name ∉ l.names) (hm : name ∉ m.names) :
    ∃ other, other ≠ name ∧ l.get? other ≠ m.get? other := by
  by_contra hagree
  have hall (other : String) : l.get? other = m.get? other := by
    by_contra hother
    refine hagree ⟨other, ?_, hother⟩
    rintro rfl
    exact hother ((get?_eq_none_of_not_mem_names hl).trans (get?_eq_none_of_not_mem_names hm).symm)
  refine hne (eq_of_mem_iff fun x => ?_)
  rw [← get?_eq_some_iff, ← get?_eq_some_iff, hall]

end Labels

/-! ## The observations of points -/

namespace DataPoint

variable {p q : DataPoint} {metric : String}

/-- **The states of a point**, by their names. -/
def stateNames (p : DataPoint) : List String :=
  match p.measurement with
  | .stateSet states => states.toList.map State.name
  | _ => []

theorem pointClass_of_mem_stateNames {state : String} (h : state ∈ p.stateNames) : p.pointClass = .stateSet := by
  unfold stateNames at h
  unfold pointClass
  split at h
  · next hmeasurement => rw [hmeasurement, Measurement.pointClass]
  · cases h

theorem exists_observation_of_mem_stateNames (metric : String) {state : String} (h : state ∈ p.stateNames) :
    ∃ o ∈ p.observations metric, o.attributes = assign metric state p.labels.toList := by
  unfold stateNames at h
  split at h
  · next states hmeasurement =>
    obtain ⟨s, hs, rfl⟩ := List.mem_map.1 h
    rw [observations, hmeasurement]
    exact ⟨_, List.mem_map_of_mem hs, rfl⟩
  · cases h

/-- **The attributes of a point**: the labels with a state, or the labels as they are if it has no states. -/
theorem attributes_of_mem_observations {o : Observation} (h : o ∈ p.observations metric) :
    (∃ state ∈ p.stateNames, o.attributes = assign metric state p.labels.toList) ∨
      p.pointClass ≠ .stateSet ∧ o.attributes = p.labels.toList := by
  unfold observations at h
  unfold stateNames pointClass
  cases hmeasurement : p.measurement <;> rw [hmeasurement] at h
  case base | histogram | summary => cases h
  case info | counter | gauge | unknown =>
    obtain rfl := List.mem_singleton.1 h
    exact .inr ⟨nofun, rfl⟩
  case stateSet states =>
    obtain ⟨s, hs, rfl⟩ := List.mem_map.1 h
    exact .inl ⟨s.name, List.mem_map_of_mem hs, rfl⟩

/-- **The observations of a point are told apart**, since its states have different names. -/
theorem pairwise_observations (metric : String) (p : DataPoint) :
    (p.observations metric).Pairwise fun a b => a.alike b = false := by
  unfold observations
  cases p.measurement with
  | base | histogram | summary => exact .nil
  | info | counter | gauge | unknown => exact List.pairwise_singleton _ _
  | stateSet states =>
    have hnames := states.increasing.nodup_map fun a _ b _ (h : a.name = b.name) => h
    refine List.pairwise_map.2 ((List.pairwise_map.1 hnames).imp fun {s t} hne => ?_)
    rw [Observation.alike, ← Bool.not_eq_true,
      sameEntries_assign_iff p.labels.nodup_keys_toList p.labels.nodup_keys_toList]
    exact fun h => hne h.1

/-- Two points with a state each are observed alike there if it is one state, and the labels differ at most in the one
that is named like the metric. -/
theorem sameEntries_stateAttributes_iff {state other : String} :
    sameEntries (assign metric state p.labels.toList) (assign metric other q.labels.toList) = true ↔
      state = other ∧ ∀ name, name ≠ metric → p.labels.get? name = q.labels.get? name := by
  rw [sameEntries_assign_iff p.labels.nodup_keys_toList q.labels.nodup_keys_toList]
  simp only [Labels.lookup_toList]

/-- **When the observations of two points are told apart** that have different labels: if these differ, for points with
a state in common, apart from the label that is named like the metric. -/
theorem forall_not_alike_iff (metric : String) (hclass : p.pointClass = q.pointClass) (hlabels : p.labels ≠ q.labels) :
    (∀ a ∈ p.observations metric, ∀ b ∈ q.observations metric, a.alike b = false) ↔
      ∀ state ∈ p.stateNames, state ∈ q.stateNames →
        ∃ name, name ≠ metric ∧ p.labels.get? name ≠ q.labels.get? name := by
  constructor
  · intro h state hp hq
    obtain ⟨a, ha, haattributes⟩ := exists_observation_of_mem_stateNames metric hp
    obtain ⟨b, hb, hbattributes⟩ := exists_observation_of_mem_stateNames metric hq
    have hapart := h a ha b hb
    rw [Observation.alike, haattributes, hbattributes, ← Bool.not_eq_true, sameEntries_stateAttributes_iff] at hapart
    by_contra hagree
    refine hapart ⟨rfl, fun name hname => ?_⟩
    by_contra hvalue
    exact hagree ⟨name, hname, hvalue⟩
  · intro h a ha b hb
    rw [Observation.alike, ← Bool.not_eq_true]
    rcases attributes_of_mem_observations ha with ⟨state, hp, haattributes⟩ | ⟨hpclass, haattributes⟩ <;>
      rcases attributes_of_mem_observations hb with ⟨other, hq, hbattributes⟩ | ⟨hqclass, hbattributes⟩ <;>
        rw [haattributes, hbattributes]
    · rw [sameEntries_stateAttributes_iff]
      rintro ⟨rfl, hagree⟩
      obtain ⟨name, hname, hvalue⟩ := h state hp hq
      exact hvalue (hagree name hname)
    · exact absurd (hclass.symm.trans (pointClass_of_mem_stateNames hp)) hqclass
    · exact absurd (hclass.trans (pointClass_of_mem_stateNames hq)) hpclass
    · rw [Labels.sameEntries_toList_iff]
      exact hlabels

end DataPoint

/-! ## The observations of a snapshot -/

namespace Snapshot

variable {s : Snapshot}

/-- **When all observations of a snapshot are told apart**, if its points have different labels: exactly if points that
have a state in common still differ in their labels when this has taken the place of the one that is named like the
metric. So they always are if the metric is no state set, and if no label is named like it. -/
theorem pairwise_observations_iff (hlabels : s.points.Pairwise fun p q => p.labels ≠ q.labels) :
    ((s.observations.Pairwise fun a b => a.alike b = false) ↔
        s.points.Pairwise fun p q => ∀ state ∈ p.stateNames, state ∈ q.stateNames →
          ∃ name, name ≠ s.name ∧ p.labels.get? name ≠ q.labels.get? name) ∧
      ((s.kind = .stateSet → ∀ p ∈ s.points, s.name ∉ p.labels.names) →
        s.observations.Pairwise fun a b => a.alike b = false) := by
  have hpoints {p q : DataPoint} (hp : p ∈ s.points) (hq : q ∈ s.points) (hne : p.labels ≠ q.labels) :=
    DataPoint.forall_not_alike_iff s.name ((s.classed p hp).trans (s.classed q hq).symm) hne
  have hiff : (s.observations.Pairwise fun a b => a.alike b = false) ↔
      s.points.Pairwise fun p q => ∀ state ∈ p.stateNames, state ∈ q.stateNames →
        ∃ name, name ≠ s.name ∧ p.labels.get? name ≠ q.labels.get? name := by
    rw [observations, List.pairwise_flatMap]
    constructor
    · rintro ⟨-, h⟩
      exact (hlabels.and h).imp_of_mem fun hp hq hpq => (hpoints hp hq hpq.1).1 hpq.2
    · intro h
      refine ⟨fun p _ => p.pairwise_observations _, ?_⟩
      exact (hlabels.and h).imp_of_mem fun hp hq hpq => (hpoints hp hq hpq.1).2 hpq.2
  refine ⟨hiff, fun hfree => hiff.2 (hlabels.imp_of_mem fun {p q} hp hq hne state hstate _ => ?_)⟩
  have hclass := (s.classed p hp).symm.trans (DataPoint.pointClass_of_mem_stateNames hstate)
  have hnames := hfree (Kind.pointClass_eq_stateSet_iff.1 hclass)
  exact Labels.exists_get?_ne hne (hnames p hp) (hnames q hq)

/-! ### A label that is named like the metric -/

/-- A point that says whether a task is running. -/
def task (labels : Labels) (running : Bool) : DataPoint :=
  .ofParts labels .zero .zero
    (.stateSet ⟨[⟨"running", running⟩], List.cons_ne_nil _ _, by simp, List.pairwise_singleton _ _⟩)

def tasks (points : List DataPoint) (classed : ∀ p ∈ points, p.pointClass = .stateSet)
    (ordered : Chained (Follows DataPoint.precedes) points) : Snapshot where
  kind := .stateSet
  metadata := ⟨"task", none, none, by decide⟩
  points := points
  unitAllowed h := by cases h
  classed := classed
  ordered := ordered

def tasksByHost : Snapshot :=
  tasks [task ⟨[⟨"host", "a"⟩, ⟨"task", "copy"⟩], by decide, by decide⟩ true,
    task ⟨[⟨"host", "b"⟩, ⟨"task", "copy"⟩], by decide, by decide⟩ false] (by decide) ⟨by decide +kernel, trivial⟩

/-- The state takes the place of the label of the task, and the hosts are still told apart. -/
theorem tasksByHost_observed_apart :
    (tasksByHost.points.Pairwise fun p q => p.labels ≠ q.labels) ∧
      tasksByHost.observations.Pairwise fun a b => a.alike b = false := by
  have hlabels : tasksByHost.points.Pairwise fun p q => p.labels ≠ q.labels := by decide
  obtain ⟨hiff, -⟩ := pairwise_observations_iff hlabels
  exact ⟨hlabels, hiff.2 (List.pairwise_pair.2 fun _ _ _ => ⟨"host", by decide, by decide⟩)⟩

def tasksByName : Snapshot :=
  tasks [task (.single "task" "copy" (by decide)) true, task (.single "task" "move" (by decide)) false] (by decide)
    ⟨by decide +kernel, trivial⟩

/-- **Points with different labels are not always observed apart**: the state takes the place of the label of the task,
and both tasks are observed under the same attributes, one as running and one as not. -/
theorem tasksByName_observed_alike :
    (tasksByName.points.Pairwise fun p q => p.labels ≠ q.labels) ∧
      tasksByName.observations.map (·.attributes) = [[("task", "running")], [("task", "running")]] ∧
      ¬tasksByName.observations.Pairwise fun a b => a.alike b = false := by
  decide

end Snapshot

end Telemetry
