import Telemetry.Proofs.Family.Observed
import Telemetry.Proofs.Snapshot.Merging

/-!
# Families and observations of merged snapshots

The samples of a family are blocks, one for each point, and a block depends on the point and the name of the family
only. Merging puts the points of two snapshots of one metric together, in the order of points. So the family of the
merged snapshot has the blocks of both families, each as it was, and in the same way it has the observations of both.

## Main definitions

* `Family.header`: what families of one metric have in common

## Main results

* `Snapshot.exists_family_of_merge_iff`: when a merged snapshot has a family
* `Snapshot.blocks_of_merge`: each point brings the block to a merged family that it has alone
* `Snapshot.exposition_of_merge`: families and observations of merged snapshots are those of both
-/

namespace Telemetry

/-! ## Families of one metric -/

namespace Family

/-- **What families of one metric have in common**: name, help text, kind and unit. -/
def header (f : Family) : String × String × Kind × String :=
  (f.name, f.help, f.kind, f.unit)

variable {s t : Snapshot} {f g : Family}

/-- Metrics of one header have families of one header. -/
theorem header_eq (hf : ofSnapshot s = .ok f) (hg : ofSnapshot t = .ok g) (h : s.header = t.header) :
    f.header = g.header := by
  obtain ⟨hmetadata, hkind⟩ := Snapshot.header_eq_iff.1 h
  obtain ⟨-, hfname, hfhelp, hfkind, hfunit⟩ := ofSnapshot_eq_ok_iff.1 hf
  obtain ⟨-, hgname, hghelp, hgkind, hgunit⟩ := ofSnapshot_eq_ok_iff.1 hg
  rw [header, header, hfname, hfhelp, hfkind, hfunit, hgname, hghelp, hgkind, hgunit, hmetadata, hkind]

end Family

/-! ## Merged snapshots -/

namespace Snapshot

variable {a b r : Snapshot} {f fa fb : Family}

/-- What holds of all points of a merged snapshot holds of all points of both. -/
theorem forall_points_of_merge_iff {P : DataPoint → Prop} (h : a.merge b = .ok r) :
    (∀ p ∈ r.points, P p) ↔ ∀ p ∈ a.points ++ b.points, P p :=
  forall_congr' fun _ => imp_congr_left (perm_of_merge h).mem_iff

/-- **When a merged snapshot has a family**: if both have one. -/
theorem exists_family_of_merge_iff (h : a.merge b = .ok r) :
    (∃ f, Family.ofSnapshot r = .ok f) ↔
      (∃ fa, Family.ofSnapshot a = .ok fa) ∧ ∃ fb, Family.ofSnapshot b = .ok fb := by
  simp only [Family.exists_ofSnapshot_iff]
  rw [forall_points_of_merge_iff h, List.forall_mem_append]

/-- **A merged snapshot has a family as soon as timestamps are in range** and counts can be added up. -/
theorem exists_family_of_merge_iff_of_shown (h : a.merge b = .ok r)
    (hshown : ∀ p ∈ a.points ++ b.points, ∀ t ∈ p.shownTimestamps, t.number.InRange) :
    (∃ f, Family.ofSnapshot r = .ok f) ↔ ∀ p ∈ a.points ++ b.points, p.measurement.CountsAdd := by
  rw [Family.exists_ofSnapshot_iff_of_shown ((forall_points_of_merge_iff h).2 hshown), forall_points_of_merge_iff h]

theorem header_of_merge (h : a.merge b = .ok r) (hf : Family.ofSnapshot r = .ok f)
    (hfa : Family.ofSnapshot a = .ok fa) (hfb : Family.ofSnapshot b = .ok fb) :
    f.header = fa.header ∧ f.header = fb.header := by
  obtain ⟨hra, hab, -⟩ := Collection.of_merge_eq_ok h
  exact ⟨Family.header_eq hf hfa hra, Family.header_eq hf hfb (hra.trans hab)⟩

/-- **Each point brings the block to a merged family that it has alone.** -/
theorem blocks_of_merge (h : a.merge b = .ok r) (hf : Family.ofSnapshot r = .ok f)
    (hfa : Family.ofSnapshot a = .ok fa) (hfb : Family.ofSnapshot b = .ok fb) :
    f.samples = r.points.flatMap (DataPoint.block f.name) ∧
      fa.samples = a.points.flatMap (DataPoint.block f.name) ∧
      fb.samples = b.points.flatMap (DataPoint.block f.name) := by
  obtain ⟨hleft, hright⟩ := header_of_merge h hf hfa hfb
  have hfaname : f.name = fa.name := congrArg Prod.fst hleft
  have hfbname : f.name = fb.name := congrArg Prod.fst hright
  refine ⟨(Family.samples_eq_flatMap hf).2, ?_, ?_⟩
  · rw [hfaname]
    exact (Family.samples_eq_flatMap hfa).2
  · rw [hfbname]
    exact (Family.samples_eq_flatMap hfb).2

/-- The samples of a merged family are those of both. -/
theorem samples_of_merge (h : a.merge b = .ok r) (hf : Family.ofSnapshot r = .ok f)
    (hfa : Family.ofSnapshot a = .ok fa) (hfb : Family.ofSnapshot b = .ok fb) :
    f.samples.Perm (fa.samples ++ fb.samples) := by
  obtain ⟨hr, ha, hb⟩ := blocks_of_merge h hf hfa hfb
  rw [hr, ha, hb, ← List.flatMap_append]
  exact (perm_of_merge h).flatMap_right _

/-- The observations of a merged snapshot are those of both. -/
theorem observations_of_merge (h : a.merge b = .ok r) :
    r.observations.Perm (a.observations ++ b.observations) := by
  obtain ⟨hra, hab, -⟩ := Collection.of_merge_eq_ok h
  have hraname : r.name = a.name := congrArg (·.1.name) hra
  have habname : a.name = b.name := congrArg (·.1.name) hab
  rw [observations, observations, observations, hraname, habname, ← List.flatMap_append]
  exact (perm_of_merge h).flatMap_right _

/-- **Exposition and observation commute with merging.** A merged snapshot has a family exactly if both snapshots have
one. It has their header and the samples of both: its samples are blocks, one for each point, and each point has the
same block in the family of the snapshot it comes from. The observations are those of both as well. -/
theorem exposition_of_merge (h : a.merge b = .ok r) :
    ((∃ f, Family.ofSnapshot r = .ok f) ↔
        (∃ fa, Family.ofSnapshot a = .ok fa) ∧ ∃ fb, Family.ofSnapshot b = .ok fb) ∧
      ((∀ p ∈ a.points ++ b.points, ∀ t ∈ p.shownTimestamps, t.number.InRange) →
        ((∃ f, Family.ofSnapshot r = .ok f) ↔ ∀ p ∈ a.points ++ b.points, p.measurement.CountsAdd)) ∧
      (∀ f fa fb, Family.ofSnapshot r = .ok f → Family.ofSnapshot a = .ok fa → Family.ofSnapshot b = .ok fb →
        f.header = fa.header ∧ f.header = fb.header ∧ f.samples.Perm (fa.samples ++ fb.samples) ∧
          r.points.Perm (a.points ++ b.points) ∧
          (∀ p ∈ r.points, p.samples f.name = .ok (p.block f.name)) ∧
          f.samples = r.points.flatMap (DataPoint.block f.name) ∧
          fa.samples = a.points.flatMap (DataPoint.block f.name) ∧
          fb.samples = b.points.flatMap (DataPoint.block f.name)) ∧
      r.observations.Perm (a.observations ++ b.observations) := by
  refine ⟨exists_family_of_merge_iff h, exists_family_of_merge_iff_of_shown h, fun f fa fb hf hfa hfb => ?_,
    observations_of_merge h⟩
  obtain ⟨hleft, hright⟩ := header_of_merge h hf hfa hfb
  exact ⟨hleft, hright, samples_of_merge h hf hfa hfb, perm_of_merge h, (Family.samples_eq_flatMap hf).1,
    blocks_of_merge h hf hfa hfb⟩

def backDoor : Snapshot where
  kind := .stateSet
  metadata := door.metadata
  points := [.ofParts ⟨[⟨"side", "back"⟩], by decide, by decide⟩ .zero .zero
    (.stateSet ⟨[⟨"ajar", false⟩, ⟨"open", false⟩], by decide, by decide, by decide⟩)]
  unitAllowed h := by cases h
  classed p hp := by
    rw [List.mem_singleton.1 hp]
    rfl
  ordered := chained_singleton _

/-- The states of two doors are exposed and observed together. -/
theorem exposition_of_doors :
    ∃ doors f front back, door.merge backDoor = .ok doors ∧ Family.ofSnapshot doors = .ok f ∧
      Family.ofSnapshot door = .ok front ∧ Family.ofSnapshot backDoor = .ok back ∧
      f.header = front.header ∧ f.samples.Perm (front.samples ++ back.samples) ∧
      doors.observations.Perm (door.observations ++ backDoor.observations) := by
  obtain ⟨doors, hdoors⟩ := merge_eq_ok_iff.2 (⟨rfl, rfl⟩ : door.metadata = backDoor.metadata ∧
    door.kind = backDoor.kind)
  have hconvertible : ∀ p ∈ door.points ++ backDoor.points, p.Convertible := by decide +kernel
  obtain ⟨hfront, hback⟩ := List.forall_mem_append.1 hconvertible
  obtain ⟨front, hfront⟩ := Family.exists_ofSnapshot_iff.2 hfront
  obtain ⟨back, hback⟩ := Family.exists_ofSnapshot_iff.2 hback
  obtain ⟨hexists, -, hparts, hobservations⟩ := exposition_of_merge hdoors
  obtain ⟨f, hf⟩ := hexists.2 ⟨⟨front, hfront⟩, back, hback⟩
  obtain ⟨hheader, -, hsamples, -⟩ := hparts f front back hf hfront hback
  exact ⟨doors, f, front, back, hdoors, hf, hfront, hback, hheader, hsamples, hobservations⟩

end Snapshot

end Telemetry
