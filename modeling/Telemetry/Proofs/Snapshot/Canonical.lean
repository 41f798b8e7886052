import Telemetry.Snapshot
import Telemetry.Proofs.Point.Written

/-!
# Canonical snapshots

If all timestamps are numbers, a snapshot does not depend on the order in which its points were given: points
are ordered, and points that tie are equal. Timestamps that are whole numbers always are numbers; only `nan`
is excluded.

## Main definitions

* `Snapshot.Timed`: snapshots whose timestamps are numbers

## Main results

* `DataPoint.settle_eq_arrange`, `DataPoint.settle_eq_of_perm`: settling points is arranging them, and does not
  depend on their order
* `Snapshot.eq_of_perm`: snapshots of one metric with the same points are equal
* `Snapshot.ofPoints_eq_ok_iff`, `Snapshot.exists_ofPoints_iff`: which snapshot is made of points, and when
* `Snapshot.make_eq_ok_iff`, `Snapshot.make_parts`: which snapshot is made of unchecked parts, among them its own
* `Snapshot.make_eq_ok_iff_of_perm`: construction does not depend on the order of points
-/

namespace Telemetry

namespace DataPoint

variable {ps qs : List DataPoint}

/-- **Settling points is arranging them**, if all timestamps are numbers. -/
theorem settle_eq_arrange (htimed : ∀ p ∈ ps, p.isTimed = true) :
    settle precedes ps = arrange order ps := by
  -- Among timed points, coming before is an order without ties.
  apply Telemetry.settle_eq_arrange precedes_asymm
  · exact fun p hp q hq => precedes_eq_order (htimed p hp) (htimed q hq)
  · exact fun p _ q _ => eq_of_order_eq

/-- **Settling points does not depend on their order**, if all timestamps are numbers. -/
theorem settle_eq_of_perm (htimed : ∀ p ∈ ps, p.isTimed = true) (hperm : ps.Perm qs) :
    settle precedes ps = settle precedes qs := by
  rw [settle_eq_arrange htimed, settle_eq_arrange fun q hq => htimed q (hperm.mem_iff.2 hq)]
  exact arrange_eq_of_perm (fun p _ q _ => eq_of_order_eq) hperm

end DataPoint

theorem PointArgument.isOf_iff {c : PointClass} {a : PointArgument} :
    a.isOf c = true ↔ ∃ p, a = .point p ∧ p.pointClass = c := by
  cases a <;> simp [isOf]

theorem PointArgument.point?_eq_some_iff {a : PointArgument} {p : DataPoint} :
    a.point? = some p ↔ a = .point p := by
  cases a <;> simp [point?]

/-- A gauge that shows a number, without labels and timestamps. -/
def DataPoint.gauge (n : Number) : DataPoint :=
  .ofParts .empty .zero .zero (.gauge (.number n) none)

namespace Snapshot

/-- **Snapshots whose timestamps are numbers.** -/
def Timed (s : Snapshot) : Prop :=
  ∀ p ∈ s.points, p.isTimed = true

instance (s : Snapshot) : Decidable s.Timed :=
  inferInstanceAs (Decidable (∀ p ∈ s.points, p.isTimed = true))

/-- **Snapshots of one metric with the same points are equal**, if all timestamps are numbers. -/
theorem eq_of_perm {s t : Snapshot} (htimed : s.Timed) (hmetadata : s.metadata = t.metadata)
    (hkind : s.kind = t.kind) (hperm : s.points.Perm t.points) : s = t := by
  refine Snapshot.ext hkind hmetadata ?_
  calc
    s.points = settle DataPoint.precedes s.points := (settle_of_chained s.ordered).symm
    _ = settle DataPoint.precedes t.points := DataPoint.settle_eq_of_perm htimed hperm
    _ = t.points := settle_of_chained t.ordered

/-- Where the kind allows no unit, there is none. -/
theorem unit_eq_none (s : Snapshot) (h : s.kind.allowsUnit = false) : s.metadata.unit = none := by
  apply Option.not_isSome_iff_eq_none.1
  intro hunit
  rw [s.unitAllowed hunit] at h
  cases h

/-! ## Construction -/

variable {s : Snapshot}

/-- **Which snapshot is made of points**: the one of the kind and the metadata with the points settled, if there is
such a snapshot. -/
theorem ofPoints_eq_ok_iff {kind : Kind} {metadata : Metadata} {points : List DataPoint} :
    ofPoints kind metadata points = .ok s ↔
      s.kind = kind ∧ s.metadata = metadata ∧ s.points = settle DataPoint.precedes points := by
  constructor
  · intro h
    unfold ofPoints at h
    split at h
    · split at h
      · cases h
      · cases h
        exact ⟨rfl, rfl, rfl⟩
    · cases h
  · rintro ⟨rfl, rfl, hpoints⟩
    unfold ofPoints
    rw [dif_pos s.unitAllowed]
    split
    · next p hp =>
      have hmem : p ∈ s.points := by
        rw [hpoints, mem_settle]
        exact List.mem_of_find?_eq_some hp
      have hne := List.find?_some hp
      simp [s.classed p hmem] at hne
    · exact congrArg Except.ok (Snapshot.ext rfl rfl hpoints.symm)

/-- A snapshot is made of points if the kind allows the unit and all points are of its class. -/
theorem exists_ofPoints_iff {kind : Kind} {metadata : Metadata} {points : List DataPoint} :
    (∃ s, ofPoints kind metadata points = .ok s) ↔
      (metadata.hasUnit = true → kind.allowsUnit = true) ∧
        ∀ p ∈ points, p.pointClass = kind.pointClass := by
  constructor
  · rintro ⟨s, h⟩
    obtain ⟨rfl, rfl, hpoints⟩ := ofPoints_eq_ok_iff.1 h
    refine ⟨s.unitAllowed, fun p hp => s.classed p ?_⟩
    rw [hpoints, mem_settle]
    exact hp
  · rintro ⟨hunit, hclassed⟩
    exact ⟨sorted kind metadata points hunit hclassed, ofPoints_eq_ok_iff.2 ⟨rfl, rfl, rfl⟩⟩

/-- **Which snapshot is made of unchecked parts**: the kind has to be found by its word, there have to be metadata,
and all arguments have to be points of the kind, which are settled. -/
theorem make_eq_ok_iff {kind : Datum} {metadata : Option Metadata} {arguments : List PointArgument} :
    make kind metadata (some arguments) = .ok s ↔
      Kind.ofDatum? kind = some s.kind ∧ metadata = some s.metadata ∧
        (∀ a ∈ arguments, a.isOf s.kind.pointClass = true) ∧
        s.points = settle DataPoint.precedes (arguments.filterMap PointArgument.point?) := by
  unfold make
  cases hkind : Kind.ofDatum? kind with
  | none => simp
  | some k =>
    cases metadata with
    | none => simp
    | some m =>
      dsimp only
      split
      · next a hunit ha =>
        have hmem := List.mem_of_find?_eq_some ha
        have hother := List.find?_some ha
        refine iff_of_false (by simp) ?_
        rintro ⟨hk, -, hall, -⟩
        rw [← Option.some.inj hk] at hall
        simp [hall a hmem] at hother
      · next hnone =>
        rw [ofPoints_eq_ok_iff, Option.some.injEq, Option.some.injEq]
        constructor
        · rintro ⟨rfl, rfl, hpoints⟩
          refine ⟨rfl, rfl, fun a ha => ?_, hpoints⟩
          have hunit : (s.metadata.hasUnit && !s.kind.allowsUnit) = false := by
            cases hhas : s.metadata.hasUnit with
            | false => rfl
            | true => simp [s.unitAllowed hhas]
          have hfound : (arguments.find? fun a => !a.isOf s.kind.pointClass) = none :=
            Option.eq_none_iff_forall_ne_some.2 fun a ha => hnone a hunit ha
          simpa using List.find?_eq_none.1 hfound a ha
        · rintro ⟨rfl, rfl, -, hpoints⟩
          exact ⟨rfl, rfl, hpoints⟩

/-- Which snapshot is made of arguments that are all points. -/
theorem make_points_eq_ok_iff {kind : Datum} {metadata : Option Metadata} {ps : List DataPoint} :
    make kind metadata (some (ps.map .point)) = .ok s ↔
      Kind.ofDatum? kind = some s.kind ∧ metadata = some s.metadata ∧
        (∀ p ∈ ps, p.pointClass = s.kind.pointClass) ∧ s.points = settle DataPoint.precedes ps := by
  have hpoints : (ps.map PointArgument.point).filterMap PointArgument.point? = ps := by
    rw [List.filterMap_map]
    exact List.filterMap_some
  rw [make_eq_ok_iff, hpoints]
  simp [PointArgument.isOf_iff]

theorem make_parts (s : Snapshot) :
    make (.text s.kind.word) (some s.metadata) (some (s.points.map .point)) = .ok s :=
  make_points_eq_ok_iff.2 ⟨Kind.ofDatum?_word s.kind, rfl, s.classed, (settle_of_chained s.ordered).symm⟩

/-- **Construction does not depend on the order of points**, if all timestamps are numbers: from the same arguments
in another order the same snapshot is made, or none. -/
theorem make_eq_ok_iff_of_perm {as bs : List PointArgument} (hperm : as.Perm bs)
    (htimed : ∀ p, .point p ∈ as → p.isTimed = true) (kind : Datum) (metadata : Option Metadata)
    (s : Snapshot) : make kind metadata (some as) = .ok s ↔ make kind metadata (some bs) = .ok s := by
  have hpoints : (as.filterMap PointArgument.point?).Perm (bs.filterMap PointArgument.point?) :=
    hperm.filterMap _
  have hsettle := DataPoint.settle_eq_of_perm (fun p hp => ?_) hpoints
  · simp only [make_eq_ok_iff, hperm.mem_iff, hsettle]
  · obtain ⟨a, ha, hpoint⟩ := List.mem_filterMap.1 hp
    rw [PointArgument.point?_eq_some_iff.1 hpoint] at ha
    exact htimed p ha

def drift : Metadata :=
  ⟨"drift", none, none, by decide⟩

/-- Two gauges at zero that tie in all but their sorts: in both orders they make the same snapshot. -/
theorem make_eq_ok_of_perm_gauges :
    [PointArgument.point (.gauge (.whole 0)), .point (.gauge .zeroReal)].Perm
        [.point (.gauge .zeroReal), .point (.gauge (.whole 0))] ∧
      (∀ p, .point p ∈ [PointArgument.point (.gauge (.whole 0)), .point (.gauge .zeroReal)] →
        p.isTimed = true) ∧
      ∃ s, make (.text "gauge") (some drift)
          (some [.point (.gauge (.whole 0)), .point (.gauge .zeroReal)]) = .ok s ∧
        make (.text "gauge") (some drift)
          (some [.point (.gauge .zeroReal), .point (.gauge (.whole 0))]) = .ok s := by
  have hperm := List.Perm.swap (PointArgument.point (.gauge .zeroReal)) (.point (.gauge (.whole 0))) []
  have htimed : ∀ p, .point p ∈ [PointArgument.point (.gauge (.whole 0)), .point (.gauge .zeroReal)] →
      p.isTimed = true := by
    simp only [List.mem_cons, PointArgument.point.injEq, List.not_mem_nil, or_false]
    rintro p (rfl | rfl) <;> rfl
  refine ⟨hperm, htimed, _, rfl, ?_⟩
  exact (make_eq_ok_iff_of_perm hperm htimed _ _ _).1 rfl

end Snapshot

end Telemetry
