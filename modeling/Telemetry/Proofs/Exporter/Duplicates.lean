import Mathlib.Data.List.Nodup
import Mathlib.Data.List.Perm.Subperm
import Telemetry.Exporter.Scrape
import Telemetry.Proofs.Labels.Order

/-!
# Points that are exposed alike

Before a collection is exposed, neighbouring points are asked whether they have the same labels. Points are
in the order of their exposed labels, so points that are exposed alike stand together; but among those, points
whose label names differ in dots and underscores may stand between points with the same labels, and hide that
they are the same. The check is exact where labels that are exposed alike are equal.

## Main definitions

* `Snapshot.interleaved`: a snapshot whose check finds nothing although two points have the same labels

## Main results

* `Labels.sameEntries_toExposedList_iff`: label sets are exposed as the same dictionary exactly if they tie
* `Snapshot.duplicateLabels_eq_nil_iff`: the check finds nothing if all neighbours have different labels
* `Snapshot.pairwise_exposed_iff`: when points that pass the check are exposed under different labels
* `Snapshot.interleaved_exposed_alike`: they are not always
-/

namespace Telemetry

/-! ## Exposed dictionaries -/

section Dictionary

variable {entries others : List (String × String)}

/-- Dictionaries have the same entries if one is a rearrangement of the other. -/
theorem sameEntries_iff_perm (hkeys : (entries.map (·.1)).Nodup) (hothers : (others.map (·.1)).Nodup) :
    sameEntries entries others = true ↔ entries.Perm others := by
  simp only [sameEntries, Bool.and_eq_true, beq_iff_eq, List.all_eq_true]
  constructor
  · rintro ⟨hlength, hall⟩
    have hsubset : entries ⊆ others := fun entry hentry => mem_of_lookup_eq_some (hall entry hentry)
    have hsubperm := List.subperm_of_subset (List.Nodup.of_map _ hkeys) hsubset
    exact hsubperm.perm_of_length_le (Nat.le_of_eq hlength.symm)
  · intro hperm
    refine ⟨hperm.length_eq, fun entry hentry => ?_⟩
    exact lookup_eq_some_of_mem hothers (hperm.mem_iff.1 hentry)

end Dictionary

namespace Labels

def single (name value : String) (legal : LabelName.problem? name = none) : Labels where
  labels := [⟨name, value⟩]
  legal := by simpa using legal
  increasing := List.pairwise_singleton _ _

/-- The exposed names of a label set are pairwise distinct. -/
theorem nodup_exposed_keys (l : Labels) : (l.toExposedList.map (·.1)).Nodup := by
  rw [toExposedList, List.map_map]
  exact List.pairwise_map.2 l.pairwise_exposedName

/-- The entries of an exposed dictionary are in the order of their names. -/
theorem pairwise_exposed (l : Labels) :
    l.toExposedList.Pairwise fun a b => compare a.1 b.1 = .lt :=
  List.pairwise_map.2 l.increasing

/-- **Label sets tie exactly if they are exposed as the same dictionary.** -/
theorem sameEntries_toExposedList_iff (l m : Labels) :
    sameEntries l.toExposedList m.toExposedList = true ↔ order l m = .eq := by
  rw [sameEntries_iff_perm l.nodup_exposed_keys m.nodup_exposed_keys, ← toExposedList_eq_iff]
  constructor
  · intro hperm
    refine List.Perm.eq_of_pairwise (fun a b _ _ hab hba => ?_) l.pairwise_exposed m.pairwise_exposed hperm
    have hswap : compare b.1 a.1 = (compare a.1 b.1).swap := Std.OrientedOrd.eq_swap
    rw [hba, hab] at hswap
    cases hswap
  · intro h
    rw [h]

end Labels

/-! ## The check -/

/-- A list without tied neighbours is one in which no element may be followed by one that ties. -/
theorem firstTie?_eq_none_iff {α : Type} {cmp : α → α → Ordering} {xs : List α} :
    firstTie? cmp xs = none ↔ Chained (fun a b => cmp a b ≠ .eq) xs := by
  induction xs with
  | nil => simp [firstTie?, chained_nil]
  | cons a rest ih =>
    cases rest with
    | nil => simp [firstTie?, chained_singleton]
    | cons b rest =>
      by_cases hab : cmp a b = .eq
      · simp [firstTie?, Chained, hab]
      · simp [firstTie?, Chained, hab, ih]

namespace Snapshot

theorem repeated_eq_nil_iff (ls : List Labels) : repeated none ls = [] ↔ Chained (· ≠ ·) ls := by
  induction ls with
  | nil => simp [repeated, chained_nil]
  | cons a rest ih =>
    cases rest with
    | nil => simp [repeated, chained_singleton]
    | cons b rest =>
      by_cases hab : a = b
      · simp [repeated, Chained, hab]
      · simp [repeated, Chained, hab, ih]

/-- **The check finds nothing if all neighbours have different labels.** -/
theorem duplicateLabels_eq_nil_iff (s : Snapshot) :
    s.duplicateLabels = [] ↔ Chained (· ≠ ·) (s.points.map (·.labels)) :=
  repeated_eq_nil_iff _

/-- **When points that pass the check are exposed under different labels**: exactly if those with labels that
are exposed alike have the same labels. -/
theorem pairwise_exposed_iff {s : Snapshot} (hcheck : s.duplicateLabels = []) :
    (s.points.Pairwise fun p q =>
        sameEntries p.labels.toExposedList q.labels.toExposedList = false) ↔
      ∀ p ∈ s.points, ∀ q ∈ s.points,
        sameEntries p.labels.toExposedList q.labels.toExposedList = true → p.labels = q.labels := by
  have hlabels : (s.points.Pairwise fun p q =>
      sameEntries p.labels.toExposedList q.labels.toExposedList = false) ↔
        (s.points.map (·.labels)).Pairwise fun l m => Labels.order l m ≠ .eq := by
    rw [List.pairwise_map]
    simp only [ne_eq, ← Labels.sameEntries_toExposedList_iff, Bool.not_eq_true]
  rw [hlabels]
  simp only [Labels.sameEntries_toExposedList_iff]
  constructor
  · intro hpairwise
    rw [List.pairwise_map] at hpairwise
    refine List.Pairwise.forall_of_forall_of_flip (fun p _ _ => rfl) ?_ ?_
    · exact hpairwise.imp fun {p q} hne htie => absurd htie hne
    · refine hpairwise.imp fun {p q} hne htie => absurd ?_ hne
      have hswap : Labels.order p.labels q.labels = (Labels.order q.labels p.labels).swap :=
        Std.OrientedCmp.eq_swap
      rw [hswap, htie]
      rfl
  · intro hequal
    have hchained : Chained (fun l m => Labels.order l m ≠ .eq) (s.points.map (·.labels)) := by
      refine ((duplicateLabels_eq_nil_iff s).1 hcheck).imp fun l hl m hm hne htie => ?_
      obtain ⟨p, hp, rfl⟩ := List.mem_map.1 hl
      obtain ⟨q, hq, rfl⟩ := List.mem_map.1 hm
      exact hne (hequal p hp q hq htie)
    have hordered : (s.points.map (·.labels)).Pairwise fun l m => (Labels.order l m).isLE = true :=
      List.pairwise_map.2 s.pairwise_labels
    -- In an ordered list it is enough that no neighbours tie.
    have hincreasing := increasing_of_firstTie? hordered (firstTie?_eq_none_iff.2 hchained)
    refine hincreasing.imp fun {l m} hlt heq => ?_
    rw [hlt] at heq
    cases heq

/-! ### What the check sees and what it does not -/

/-- A gauge that shows how many milliseconds have passed, at given moments and under given labels. -/
def clock (points : List DataPoint) (classed : ∀ p ∈ points, p.pointClass = .gauge)
    (ordered : Chained (Follows DataPoint.precedes) points) : Snapshot where
  kind := .gauge
  metadata := ⟨"clock", none, none, by decide⟩
  points := points
  unitAllowed _ := rfl
  classed := classed
  ordered := ordered

def reading (name value : String) (legal : LabelName.problem? name = none) (millis : Nat) : DataPoint :=
  .ofParts (.single name value legal) .zero (.ofNat millis) (.gauge (.whole millis) none)

/-- Two readings whose labels have different values. -/
def apart : Snapshot :=
  clock [reading "a.b" "1" (by decide) 1, reading "a.b" "2" (by decide) 1] (by decide)
    ⟨by decide +kernel, trivial⟩

theorem apart_exposed_apart :
    apart.duplicateLabels = [] ∧
      apart.points.Pairwise fun p q =>
        sameEntries p.labels.toExposedList q.labels.toExposedList = false := by
  have hcheck : apart.duplicateLabels = [] := by decide
  refine ⟨hcheck, (pairwise_exposed_iff hcheck).2 ?_⟩
  decide

/-- Two readings with the same labels, and between them one whose label is spelt with an underscore. -/
def interleaved : Snapshot :=
  clock [reading "a.b" "1" (by decide) 1, reading "a_b" "1" (by decide) 2,
    reading "a.b" "1" (by decide) 3] (by decide) ⟨by decide +kernel, by decide +kernel, trivial⟩

/-- **Points that pass the check are not always exposed under different labels**: the first and the last
reading have the same labels, and all three are exposed alike. -/
theorem interleaved_exposed_alike :
    interleaved.duplicateLabels = [] ∧
      (interleaved.points.head?.map (·.labels) = interleaved.points.getLast?.map (·.labels)) ∧
      ¬interleaved.points.Pairwise fun p q =>
        sameEntries p.labels.toExposedList q.labels.toExposedList = false := by
  decide

end Snapshot

end Telemetry
