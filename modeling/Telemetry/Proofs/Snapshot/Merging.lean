import Telemetry.Proofs.Collection.Merging
import Telemetry.Proofs.Steps

/-!
# Merging snapshots

A merged snapshot is determined by its metric and its points, in whatever order they came together. So snapshots of
one metric can be merged in any order and grouping, and a snapshot without points adds nothing; snapshots of
different metrics cannot be merged at all.

## Main results

* `Snapshot.merge_eq_error_iff`: when two snapshots cannot be merged, and what is said then
* `Snapshot.merge_eq_ok_iff_perm`: into which snapshot two are merged
* `Snapshot.merge_commutative_monoid`: merging is a partial commutative monoid
-/

namespace Telemetry.Snapshot

variable {a b c r s t z : Snapshot}

/-! ## Failures -/

/-- **Snapshots that cannot be merged**: their metadata differ, or if these are equal, their kinds. -/
theorem merge_eq_error_iff {e : Error} :
    s.merge t = .error e ↔
      s.metadata ≠ t.metadata ∧ e = .snapshot (.metadataMismatch s.metadata.name) ∨
        s.metadata = t.metadata ∧ s.kind ≠ t.kind ∧ e = .snapshot (.kindMismatch s.kind.word t.kind.word) := by
  have hmerge : s.merge t = .error e ↔ ∃ cause, mergeError? s t = some cause ∧ e = .snapshot cause := by
    unfold merge
    split
    · next cause hcause => simp [hcause, eq_comm]
    · next hcause => simp [hcause]
  rw [hmerge]
  unfold mergeError?
  by_cases hmetadata : s.metadata = t.metadata
  · by_cases hkind : s.kind = t.kind <;> simp [hmetadata, hkind, eq_comm]
  · simp [hmetadata, eq_comm]

/-! ## Merged snapshots -/

/-- What timed snapshots are merged into is timed. -/
theorem timed_of_merge (hs : s.Timed) (ht : t.Timed) (h : s.merge t = .ok r) : r.Timed := by
  intro p hp
  rw [(Collection.of_merge_eq_ok h).2.2, mem_settle] at hp
  rcases List.mem_append.1 hp with hp | hp
  · exact hs p hp
  · exact ht p hp

theorem perm_of_merge (h : s.merge t = .ok r) : r.points.Perm (s.points ++ t.points) := by
  rw [(Collection.of_merge_eq_ok h).2.2]
  exact perm_settle DataPoint.precedes _

/-- **Into which snapshot two are merged**: the one of their metric that has the points of both. -/
theorem merge_eq_ok_iff_perm (hs : s.Timed) (ht : t.Timed) :
    s.merge t = .ok r ↔ s.header = t.header ∧ r.header = s.header ∧ r.points.Perm (s.points ++ t.points) := by
  constructor
  · intro h
    obtain ⟨hr, hheader, -⟩ := Collection.of_merge_eq_ok h
    exact ⟨hheader, hr, perm_of_merge h⟩
  · rintro ⟨hheader, hr, hperm⟩
    obtain ⟨r', h⟩ := merge_eq_ok_iff.2 (header_eq_iff.1 hheader)
    obtain ⟨hmetadata, hkind⟩ := header_eq_iff.1 ((Collection.of_merge_eq_ok h).1.trans hr.symm)
    rw [h, eq_of_perm (timed_of_merge hs ht h) hmetadata hkind ((perm_of_merge h).trans hperm.symm)]

/-! ## The laws -/

/-- Two snapshots can be merged in both orders. -/
theorem merge_comm_eq_ok_iff (ha : a.Timed) (hb : b.Timed) : a.merge b = .ok r ↔ b.merge a = .ok r := by
  rw [merge_eq_ok_iff_perm ha hb, merge_eq_ok_iff_perm hb ha]
  have hswap : (a.points ++ b.points).Perm (b.points ++ a.points) := List.perm_append_comm
  constructor
  · rintro ⟨hheader, hr, hperm⟩
    exact ⟨hheader.symm, hr.trans hheader, hperm.trans hswap⟩
  · rintro ⟨hheader, hr, hperm⟩
    exact ⟨hheader.symm, hr.trans hheader, hperm.trans hswap.symm⟩

/-- Three snapshots are merged into the one of their metric that has the points of all. -/
theorem merge_bind_eq_ok_iff (ha : a.Timed) (hb : b.Timed) (hc : c.Timed) :
    (a.merge b >>= fun ab => ab.merge c) = .ok r ↔
      a.header = b.header ∧ b.header = c.header ∧ r.header = a.header ∧
        r.points.Perm (a.points ++ b.points ++ c.points) := by
  rw [bind_eq_ok_iff]
  constructor
  · rintro ⟨ab, hab, hr⟩
    rw [merge_eq_ok_iff_perm (timed_of_merge ha hb hab) hc] at hr
    rw [merge_eq_ok_iff_perm ha hb] at hab
    obtain ⟨hheader, habheader, habperm⟩ := hab
    obtain ⟨hcheader, hrheader, hrperm⟩ := hr
    refine ⟨hheader, hheader.symm.trans (habheader.symm.trans hcheader), hrheader.trans habheader, ?_⟩
    exact hrperm.trans (habperm.append_right _)
  · rintro ⟨hheader, hcheader, hrheader, hrperm⟩
    obtain ⟨ab, hab⟩ := merge_eq_ok_iff.2 (header_eq_iff.1 hheader)
    refine ⟨ab, hab, (merge_eq_ok_iff_perm (timed_of_merge ha hb hab) hc).2 ?_⟩
    obtain ⟨-, habheader, habperm⟩ := (merge_eq_ok_iff_perm ha hb).1 hab
    refine ⟨habheader.trans (hheader.trans hcheader), hrheader.trans habheader.symm, ?_⟩
    exact hrperm.trans (habperm.symm.append_right _)

/-- Three snapshots can be merged in both groupings. -/
theorem merge_assoc_eq_ok_iff (ha : a.Timed) (hb : b.Timed) (hc : c.Timed) :
    (a.merge b >>= fun ab => ab.merge c) = .ok r ↔ (b.merge c >>= fun bc => a.merge bc) = .ok r := by
  -- Behind the first step, the operands change places.
  have hswap : (b.merge c >>= fun bc => a.merge bc) = .ok r ↔ (b.merge c >>= fun bc => bc.merge a) = .ok r := by
    simp only [bind_eq_ok_iff]
    constructor
    · rintro ⟨bc, hbc, hr⟩
      exact ⟨bc, hbc, (merge_comm_eq_ok_iff ha (timed_of_merge hb hc hbc)).1 hr⟩
    · rintro ⟨bc, hbc, hr⟩
      exact ⟨bc, hbc, (merge_comm_eq_ok_iff ha (timed_of_merge hb hc hbc)).2 hr⟩
  have hperm : (a.points ++ b.points ++ c.points).Perm (b.points ++ c.points ++ a.points) := by
    rw [List.append_assoc]
    exact List.perm_append_comm
  rw [hswap, merge_bind_eq_ok_iff ha hb hc, merge_bind_eq_ok_iff hb hc ha]
  constructor
  · rintro ⟨hab, hbc, hr, hpoints⟩
    exact ⟨hbc, hbc.symm.trans hab.symm, hr.trans hab, hpoints.trans hperm⟩
  · rintro ⟨hbc, hca, hr, hpoints⟩
    have hab := (hbc.trans hca).symm
    exact ⟨hab, hbc, hr.trans hab.symm, hpoints.trans hperm.symm⟩

/-- A snapshot without points adds nothing, whatever the timestamps. -/
theorem merge_eq_ok_of_points_eq_nil (hheader : z.header = a.header) (hpoints : z.points = []) :
    a.merge z = .ok a := by
  obtain ⟨r, h⟩ := merge_eq_ok_iff.2 (header_eq_iff.1 hheader.symm)
  obtain ⟨hr, -, hrpoints⟩ := Collection.of_merge_eq_ok h
  rw [hpoints, List.append_nil, settle_of_chained a.ordered] at hrpoints
  obtain ⟨hmetadata, hkind⟩ := header_eq_iff.1 hr
  rw [h, Snapshot.ext hkind hmetadata hrpoints]

/-- **Merging is a partial commutative monoid**: exactly snapshots of equal metadata and kind can be merged, which keeps
both and loses no point; the order and the grouping of the operands do not matter, and a snapshot without points
changes nothing. Where the metadata differ, that is what a failure reports. -/
theorem merge_commutative_monoid (ha : a.Timed) (hb : b.Timed) (hc : c.Timed) :
    ((∃ r, a.merge b = .ok r) ↔ a.metadata = b.metadata ∧ a.kind = b.kind) ∧
      (∀ e, a.merge b = .error e → e.category = .incompatible ∧
        (a.metadata ≠ b.metadata → e = .snapshot (.metadataMismatch a.metadata.name)) ∧
        (a.metadata = b.metadata → e = .snapshot (.kindMismatch a.kind.word b.kind.word))) ∧
      (∀ r, a.merge b = .ok r →
        r.metadata = a.metadata ∧ r.kind = a.kind ∧ r.points.Perm (a.points ++ b.points)) ∧
      (∀ r, a.merge b = .ok r ↔ b.merge a = .ok r) ∧
      (∀ r, (a.merge b >>= fun ab => ab.merge c) = .ok r ↔ (b.merge c >>= fun bc => a.merge bc) = .ok r) ∧
      ∀ z : Snapshot, z.metadata = a.metadata → z.kind = a.kind → z.points = [] → a.merge z = .ok a := by
  refine ⟨merge_eq_ok_iff, fun e h => ⟨(Collection.category_of_merge_eq_error h).1, ?_⟩, fun r h => ?_,
    fun r => merge_comm_eq_ok_iff ha hb, fun r => merge_assoc_eq_ok_iff ha hb hc, fun z hmetadata hkind => ?_⟩
  · rcases merge_eq_error_iff.1 h with ⟨hmetadata, he⟩ | ⟨hmetadata, -, he⟩
    · exact ⟨fun _ => he, fun heq => absurd heq hmetadata⟩
    · exact ⟨fun hne => absurd hmetadata hne, fun _ => he⟩
  · obtain ⟨-, hheader, hperm⟩ := (merge_eq_ok_iff_perm ha hb).1 h
    obtain ⟨hmetadata, hkind⟩ := header_eq_iff.1 hheader
    exact ⟨hmetadata, hkind, hperm⟩
  · exact merge_eq_ok_of_points_eq_nil (header_eq_iff.2 ⟨hmetadata, hkind⟩)

open Collection (firstHalf secondHalf) in
/-- Two halves are merged into the same snapshot in both orders, and with one of them again in both groupings. -/
theorem merge_halves :
    (firstHalf.Timed ∧ secondHalf.Timed) ∧
      ∃ both all, firstHalf.merge secondHalf = .ok both ∧ secondHalf.merge firstHalf = .ok both ∧
        both.points.Perm (firstHalf.points ++ secondHalf.points) ∧
        (firstHalf.merge secondHalf >>= fun h => h.merge secondHalf) = .ok all ∧
        (secondHalf.merge secondHalf >>= fun h => firstHalf.merge h) = .ok all := by
  have hfirst : firstHalf.Timed := by decide
  have hsecond : secondHalf.Timed := by decide
  obtain ⟨hexists, -, hparts, hcomm, hassoc, -⟩ := merge_commutative_monoid hfirst hsecond hsecond
  obtain ⟨both, hboth⟩ := hexists.2 ⟨rfl, rfl⟩
  -- What is merged is of the same metric, so another half can be merged into it.
  obtain ⟨hmetadata, hkind, hperm⟩ := hparts both hboth
  obtain ⟨all, hall⟩ := merge_eq_ok_iff.2 (⟨hmetadata, hkind⟩ : both.metadata = secondHalf.metadata ∧
    both.kind = secondHalf.kind)
  have hgrouped : (firstHalf.merge secondHalf >>= fun h => h.merge secondHalf) = .ok all :=
    bind_eq_ok_iff.2 ⟨both, hboth, hall⟩
  exact ⟨⟨hfirst, hsecond⟩, both, all, hboth, (hcomm both).1 hboth, hperm, hgrouped, (hassoc all).1 hgrouped⟩

end Telemetry.Snapshot
