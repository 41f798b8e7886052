import Telemetry.Proofs.Exporter.Duplicates
import Telemetry.Proofs.Labels.Union
import Telemetry.Proofs.Pipeline.Collecting
import Telemetry.Proofs.Point.Fields

/-!
# Relabelling snapshots

Labels can be added to a snapshot at once or little by little: label sets act on snapshots as they are united. What is
put in order between two steps is put in order again, so nothing is left of it.

## Main results

* `Snapshot.withLabels_bind_eq_ok_iff`: labels added in two steps, and their union
* `Snapshot.of_withLabels_eq_ok`: what becomes of a relabelled snapshot
* `Snapshot.exists_withLabels_iff`, `Snapshot.incompatible_of_withLabels_eq_error`: when labels can be added, and why
  they cannot
* `Snapshot.withLabels_action`: relabelling is an action of label sets
-/

namespace Telemetry.Snapshot

variable {s t : Snapshot} {extra more both : Labels}

/-! ## Points -/

open Change (labelled)

theorem labelled_point (p : DataPoint) :
    (labelled (.labels extra)).point p = (p.labels.merge extra >>= fun union => .ok (p.relabel union)) :=
  rfl

/-- **What becomes of a point**: it has the union of its labels and the added ones, and is the same otherwise. -/
theorem labelled_point_eq_ok_iff {p q : DataPoint} :
    (labelled (.labels extra)).point p = .ok q ↔
      ∃ union, p.labels.merge extra = .ok union ∧ q = p.relabel union := by
  rw [labelled_point, bind_eq_ok_iff]
  simp only [Except.ok.injEq, eq_comm]

/-- Labels that are added to a point one after the other might as well be united first. -/
theorem labelled_point_bind_eq_ok_iff (hunion : extra.merge more = .ok both) (p q : DataPoint) :
    ((labelled (.labels extra)).point p >>= (labelled (.labels more)).point) = .ok q ↔
      (labelled (.labels both)).point p = .ok q := by
  -- The labels may be grouped in both ways.
  have hassoc (r : Labels) :
      (∃ first, p.labels.merge extra = .ok first ∧ first.merge more = .ok r) ↔ p.labels.merge both = .ok r := by
    have h := Labels.merge_bind_eq_ok_iff (a := p.labels) (b := extra) (c := more) (r := r)
    rw [hunion] at h
    exact bind_eq_ok_iff.symm.trans h
  simp only [bind_eq_ok_iff, labelled_point_eq_ok_iff, ← hassoc]
  constructor
  · rintro ⟨-, ⟨first, hfirst, rfl⟩, second, hsecond, rfl⟩
    exact ⟨second, ⟨first, hfirst, hsecond⟩, rfl⟩
  · rintro ⟨second, ⟨first, hfirst, hsecond⟩, rfl⟩
    exact ⟨_, ⟨first, hfirst, rfl⟩, second, hsecond, rfl⟩

/-! ## Snapshots -/

/-- **Labels added in two steps** might as well be united first: both succeed or fail together, with the same
snapshot. -/
theorem withLabels_bind_eq_ok_iff (hs : s.Timed) (hunion : extra.merge more = .ok both) :
    (s.withLabels (.labels extra) >>= fun r => r.withLabels (.labels more)) = .ok t ↔
      s.withLabels (.labels both) = .ok t := by
  have hlawful (l : Labels) := Change.lawful_labelled (.labels l)
  have h := (hlawful extra).apply_bind_eq_ok_iff (t := t) (hlawful more) (hlawful both) hs (fun _ _ => .rfl)
    (labelled_point_bind_eq_ok_iff hunion)
  simp only [Change.apply_labelled] at h
  exact h

theorem withLabels_bind_self (hs : s.Timed) (extra : Labels) :
    (s.withLabels (.labels extra) >>= fun r => r.withLabels (.labels extra)) = s.withLabels (.labels extra) := by
  cases h : s.withLabels (.labels extra) with
  | error e => rfl
  | ok t =>
    have htwice := (withLabels_bind_eq_ok_iff hs extra.merge_self).2 h
    rw [h] at htwice
    exact htwice

theorem withLabels_empty (s : Snapshot) : s.withLabels (.labels .empty) = .ok s := by
  have hpoints : extendPoints .empty s.points = .ok s.points := by
    rw [Change.extendPoints_eq_mapM, mapM_eq_ok_iff]
    refine List.forall₂_same.2 fun p _ => ?_
    rw [Labels.merge_empty_right]
    rfl
  show s.extendLabels .empty = .ok s
  rw [extendLabels, hpoints]
  exact s.ofPoints_points

/-- **What becomes of a relabelled snapshot**: its points have their labels replaced, and nothing else is changed. -/
theorem of_withLabels_eq_ok (h : s.withLabels (.labels extra) = .ok t) :
    t.metadata = s.metadata ∧ t.kind = s.kind ∧
      ∃ points, List.Forall₂ (fun p q => ∃ union, p.labels.merge extra = .ok union ∧ q = p.relabel union)
        s.points points ∧ t.points.Perm points := by
  rw [← congrFun (Change.apply_labelled (.labels extra)) s] at h
  obtain ⟨hmetadata, hkind, points, hpoints, hperm⟩ := Change.of_apply_eq_ok h
  simp only [labelled_point_eq_ok_iff] at hpoints
  exact ⟨Change.eq_of_labelled_metadata hmetadata, hkind, points, hpoints, hperm⟩

/-- Labels can be added exactly if they can be united with those of every point. -/
theorem exists_withLabels_iff :
    (∃ t, s.withLabels (.labels extra) = .ok t) ↔ ∀ p ∈ s.points, p.labels.Compatible extra := by
  constructor
  · rintro ⟨t, h⟩ p hp
    obtain ⟨-, -, points, hpoints, -⟩ := of_withLabels_eq_ok h
    obtain ⟨q, -, union, hunion, -⟩ := exists_of_mem_left hpoints hp
    exact Labels.exists_merge_iff.1 ⟨union, hunion⟩
  · intro hcompatible
    rw [← congrFun (Change.apply_labelled (.labels extra)) s]
    have hmetadata : (labelled (.labels extra)).metadata s.metadata = .ok s.metadata := rfl
    refine (Change.lawful_labelled (.labels extra)).exists_apply_eq_ok hmetadata fun p hp => ?_
    obtain ⟨union, hunion⟩ := Labels.exists_merge_iff.2 (hcompatible p hp)
    exact ⟨_, labelled_point_eq_ok_iff.2 ⟨union, hunion, rfl⟩⟩

/-- **Why labels cannot be added**: they are incompatible with the labels of a point. -/
theorem incompatible_of_withLabels_eq_error {e : Error} (h : s.withLabels (.labels extra) = .error e) :
    .incompatible ∈ e.category.lineage := by
  rw [← congrFun (Change.apply_labelled (.labels extra)) s] at h
  rcases (Change.lawful_labelled (.labels extra)).of_apply_eq_error h with hmetadata | ⟨p, -, hp⟩
  · cases hmetadata
  · rw [labelled_point] at hp
    rcases bind_eq_error_iff.1 hp with hmerge | ⟨union, -, h⟩
    · exact Labels.incompatible_of_merge_eq_error hmerge
    · cases h

/-- **Relabelling is an action of label sets**: labels added in two steps are added as their union, twice is once, and
no labels change nothing. Where labels can be added, every point is made again with the union of its labels and the
added ones, and nothing else is changed; where they cannot, they are incompatible. -/
theorem withLabels_action (hs : s.Timed) (extra : Labels) :
    (∀ more both, extra.merge more = .ok both → ∀ t,
        (s.withLabels (.labels extra) >>= fun r => r.withLabels (.labels more)) = .ok t ↔
          s.withLabels (.labels both) = .ok t) ∧
      (s.withLabels (.labels extra) >>= fun r => r.withLabels (.labels extra)) = s.withLabels (.labels extra) ∧
      s.withLabels (.labels .empty) = .ok s ∧
      (∀ t, s.withLabels (.labels extra) = .ok t → t.metadata = s.metadata ∧ t.kind = s.kind ∧
        ∃ points, List.Forall₂ (fun p q => ∃ union, p.labels.merge extra = .ok union ∧
            p.withLabels (.labels union) = .ok q ∧ q = p.relabel union) s.points points ∧
          t.points.Perm points) ∧
      ∀ e, s.withLabels (.labels extra) = .error e → .incompatible ∈ e.category.lineage := by
  refine ⟨fun more both hunion t => withLabels_bind_eq_ok_iff hs hunion, withLabels_bind_self hs extra,
    s.withLabels_empty, fun t h => ?_, fun e h => incompatible_of_withLabels_eq_error h⟩
  obtain ⟨hmetadata, hkind, points, hpoints, hperm⟩ := of_withLabels_eq_ok h
  refine ⟨hmetadata, hkind, points, hpoints.imp fun p q hpq => ?_, hperm⟩
  obtain ⟨union, hunion, rfl⟩ := hpq
  exact ⟨union, hunion, p.withLabels_labels union, rfl⟩

/-! ### Labels in two steps -/

def prod : Labels :=
  .single "env" "prod" (by decide)

def eu : Labels :=
  .single "region" "eu" (by decide)

open Collection (firstHalf) in
/-- An environment and a region are added in two steps, and at once. -/
theorem withLabels_firstHalf :
    firstHalf.Timed ∧
      ∃ both t, prod.merge eu = .ok both ∧ firstHalf.withLabels (.labels both) = .ok t ∧
        (firstHalf.withLabels (.labels prod) >>= fun r => r.withLabels (.labels eu)) = .ok t := by
  have htimed : firstHalf.Timed := by decide
  obtain ⟨hsteps, -⟩ := withLabels_action htimed prod
  have hcompatible : prod.Compatible eu := by decide
  obtain ⟨both, hboth⟩ := Labels.exists_merge_iff.2 hcompatible
  have hpoints : ∀ p ∈ firstHalf.points, p.labels.Compatible both := by
    intro p hp x hx
    rw [List.mem_singleton.1 hp] at hx
    cases hx
  obtain ⟨t, ht⟩ := exists_withLabels_iff.2 hpoints
  exact ⟨htimed, both, t, hboth, ht, (hsteps eu both hboth t).2 ht⟩

end Telemetry.Snapshot
