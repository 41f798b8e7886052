import Telemetry.Proofs.Collection.Merging
import Telemetry.Proofs.Steps

/-!
# Changing snapshots and merging them

Snapshots can be changed before they are merged or after. Where a change treats metadata and points apart,
keeps different names different and equal ones equal, both ways lead to the same collection, and one fails
exactly if the other does: what becomes of the content does not depend on how it is spread over snapshots.

## Main definitions

* `Change`, `Change.apply`: what becomes of metadata and of points, and of the snapshots that they are in
* `Change.Lawful`: changes that can be made before merging or after
* `Change.Image`: lists of snapshots that are changed one by one
* `Collection.changed`: a collection in which every snapshot is changed

## Main results

* `Change.Lawful.apply_eq_ok_iff`: into which snapshot one is changed
* `Change.Lawful.apply_bind_eq_ok_iff`: two changes one after the other are one
* `Change.Image.sameContent`, `Change.Image.exists_of_sameContent`: lists of the same content are changed into
  lists of the same content
* `Change.Lawful.exists_changed_iff`: a collection can be changed if all of its snapshots can be
* `Change.Lawful.merged_changed_eq_ok_iff`: changing what is merged is merging what is changed
-/

namespace Telemetry

/-! ## Changes -/

/-- **What becomes of metadata and of points.** -/
structure Change where
  metadata : Metadata → Except Error Metadata
  point : DataPoint → Except Error DataPoint

namespace Change

/-- **A snapshot changed**, with its points in order again. -/
def apply (c : Change) (s : Snapshot) : Except Error Snapshot := do
  let metadata ← c.metadata s.metadata
  let points ← s.points.mapM c.point
  Snapshot.ofPoints s.kind metadata points

def unchanged : Change where
  metadata := .ok
  point := .ok

/-- **Changes that can be made before merging or after**: they leave alone what decides which snapshots there
can be, keep the names of different metrics different, and of one metric equal. -/
structure Lawful (c : Change) : Prop where
  hasUnit : ∀ {m m'}, c.metadata m = .ok m' → m'.hasUnit = m.hasUnit
  exposedName_iff : ∀ {m m' n n'}, c.metadata m = .ok m' → c.metadata n = .ok n' →
    (m'.exposedName = n'.exposedName ↔ m.exposedName = n.exposedName)
  metadata_inj : ∀ {m n m'}, c.metadata m = .ok m' → c.metadata n = .ok m' → m = n
  pointClass : ∀ {p p'}, c.point p = .ok p' → p'.pointClass = p.pointClass
  isTimed : ∀ {p p'}, c.point p = .ok p' → p'.isTimed = p.isTimed

variable {c : Change} {s t : Snapshot}

/-- What is made of points has the given parts. -/
theorem of_ofPoints_eq_ok {kind : Kind} {metadata : Metadata} {points : List DataPoint}
    (h : Snapshot.ofPoints kind metadata points = .ok t) :
    t.kind = kind ∧ t.metadata = metadata ∧ t.points.Perm points := by
  obtain ⟨hkind, hmetadata, hpoints⟩ := Snapshot.ofPoints_eq_ok_iff.1 h
  refine ⟨hkind, hmetadata, ?_⟩
  rw [hpoints]
  exact perm_settle DataPoint.precedes points

/-- **A changed snapshot** has the changed metadata and the changed points. -/
theorem of_apply_eq_ok (h : c.apply s = .ok t) :
    c.metadata s.metadata = .ok t.metadata ∧ t.kind = s.kind ∧
      ∃ points, List.Forall₂ (fun p q => c.point p = .ok q) s.points points ∧ t.points.Perm points := by
  simp only [apply, bind_eq_ok_iff, mapM_eq_ok_iff] at h
  obtain ⟨metadata, hmetadata, points, hpoints, h⟩ := h
  obtain ⟨hkind, rfl, hperm⟩ := of_ofPoints_eq_ok h
  exact ⟨hmetadata, hkind, points, hpoints, hperm⟩

/-- A snapshot can be changed if its metadata and all of its points can be. -/
theorem Lawful.exists_apply_eq_ok (hc : c.Lawful) {metadata : Metadata}
    (hmetadata : c.metadata s.metadata = .ok metadata)
    (hpoints : ∀ p ∈ s.points, ∃ q, c.point p = .ok q) : ∃ t, c.apply s = .ok t := by
  obtain ⟨points, hforall⟩ := exists_forall₂ hpoints
  have hunit : metadata.hasUnit = true → s.kind.allowsUnit = true := by
    rw [hc.hasUnit hmetadata]
    exact s.unitAllowed
  have hclass : ∀ q ∈ points, q.pointClass = s.kind.pointClass := by
    intro q hq
    obtain ⟨p, hp, hpq⟩ := exists_of_mem_right hforall hq
    rw [hc.pointClass hpq, s.classed p hp]
  obtain ⟨t, ht⟩ := Snapshot.exists_ofPoints_iff.2 ⟨hunit, hclass⟩
  refine ⟨t, ?_⟩
  simp only [apply, bind_eq_ok_iff, mapM_eq_ok_iff]
  exact ⟨metadata, hmetadata, points, hforall, ht⟩

/-- A change makes timed snapshots of timed ones. -/
theorem Lawful.timed (hc : c.Lawful) (hs : s.Timed) (h : c.apply s = .ok t) : t.Timed := by
  obtain ⟨-, -, points, hpoints, hperm⟩ := of_apply_eq_ok h
  intro q hq
  obtain ⟨p, hp, hpq⟩ := exists_of_mem_right hpoints (hperm.mem_iff.1 hq)
  rw [hc.isTimed hpq]
  exact hs p hp

/-- There is only one thing that can become of a point. -/
theorem rightUnique_point (c : Change) : Relator.RightUnique fun p q => c.point p = .ok q :=
  fun _ _ _ hq hq' => Except.ok.inj (hq.symm.trans hq')

/-- Changed metadata and changed points make a changed snapshot. -/
theorem Lawful.exists_apply_of_forall₂ (hc : c.Lawful) {metadata : Metadata} {points : List DataPoint}
    (hmetadata : c.metadata s.metadata = .ok metadata)
    (hpoints : List.Forall₂ (fun p q => c.point p = .ok q) s.points points) :
    ∃ t, c.apply s = .ok t ∧ t.metadata = metadata ∧ t.kind = s.kind ∧ t.points.Perm points := by
  obtain ⟨t, h⟩ := hc.exists_apply_eq_ok hmetadata fun p hp => by
    obtain ⟨q, -, hq⟩ := exists_of_mem_left hpoints hp
    exact ⟨q, hq⟩
  obtain ⟨hmetadata', hkind, points', hpoints', hperm⟩ := of_apply_eq_ok h
  obtain rfl := List.right_unique_forall₂' c.rightUnique_point hpoints hpoints'
  exact ⟨t, h, Except.ok.inj (hmetadata'.symm.trans hmetadata), hkind, hperm⟩

/-- A snapshot that cannot be changed has metadata or a point that cannot. -/
theorem Lawful.of_apply_eq_error (hc : c.Lawful) {e : Error} (h : c.apply s = .error e) :
    c.metadata s.metadata = .error e ∨ ∃ p ∈ s.points, c.point p = .error e := by
  rcases bind_eq_error_iff.1 h with hmetadata | ⟨metadata, hmetadata, hrest⟩
  · exact .inl hmetadata
  · rcases bind_eq_error_iff.1 hrest with hpoints | ⟨points, hpoints, -⟩
    · exact .inr (exists_of_mapM_eq_error hpoints)
    · -- If all parts can be changed, so can the snapshot.
      obtain ⟨t, ht, -⟩ := hc.exists_apply_of_forall₂ hmetadata (mapM_eq_ok_iff.1 hpoints)
      cases h.symm.trans ht

/-- **Into which snapshot one is changed**: the one that has the changed metadata and the changed points. -/
theorem Lawful.apply_eq_ok_iff (hc : c.Lawful) (hs : s.Timed) :
    c.apply s = .ok t ↔ c.metadata s.metadata = .ok t.metadata ∧ t.kind = s.kind ∧
      ∃ points, List.Forall₂ (fun p q => c.point p = .ok q) s.points points ∧ t.points.Perm points := by
  constructor
  · exact of_apply_eq_ok
  · rintro ⟨hmetadata, hkind, points, hpoints, hperm⟩
    obtain ⟨t', h, hmetadata', hkind', hperm'⟩ := hc.exists_apply_of_forall₂ hmetadata hpoints
    rw [h, Snapshot.eq_of_perm (hc.timed hs h) hmetadata' (hkind'.trans hkind.symm) (hperm'.trans hperm.symm)]

/-- **Two changes one after the other are one** if they are so for metadata and points: what is put in order between
them does not matter. -/
theorem Lawful.apply_bind_eq_ok_iff {d e : Change} (hc : c.Lawful) (hd : d.Lawful) (he : e.Lawful) (hs : s.Timed)
    (hmetadata : ∀ m m', (c.metadata m >>= d.metadata) = .ok m' ↔ e.metadata m = .ok m')
    (hpoint : ∀ p q, (c.point p >>= d.point) = .ok q ↔ e.point p = .ok q) :
    (c.apply s >>= d.apply) = .ok t ↔ e.apply s = .ok t := by
  have hpoints {ps qs : List DataPoint} : List.Forall₂ (fun p q => e.point p = .ok q) ps qs ↔
      ∃ between, List.Forall₂ (fun p q => c.point p = .ok q) ps between ∧
        List.Forall₂ (fun p q => d.point p = .ok q) between qs := by
    simp only [← hpoint, bind_eq_ok_iff, forall₂_comp_iff]
  rw [bind_eq_ok_iff, he.apply_eq_ok_iff hs, ← hmetadata, bind_eq_ok_iff]
  constructor
  · rintro ⟨r, hr, ht⟩
    obtain ⟨hrmetadata, hrkind, ps, hps, hrperm⟩ := of_apply_eq_ok hr
    obtain ⟨htmetadata, htkind, qs, hqs, htperm⟩ := of_apply_eq_ok ht
    obtain ⟨qs', hqs', hqperm⟩ := List.perm_comp_forall₂ hrperm.symm hqs
    exact ⟨⟨r.metadata, hrmetadata, htmetadata⟩, htkind.trans hrkind, qs', hpoints.2 ⟨ps, hps, hqs'⟩,
      htperm.trans hqperm.symm⟩
  · rintro ⟨⟨m, hm, htmetadata⟩, htkind, qs, hqs, htperm⟩
    obtain ⟨ps, hps, hqs⟩ := hpoints.1 hqs
    obtain ⟨r, hr, rfl, hrkind, hrperm⟩ := hc.exists_apply_of_forall₂ hm hps
    obtain ⟨qs', hqs', hqperm⟩ := List.perm_comp_forall₂ hrperm hqs
    exact ⟨r, hr, (hd.apply_eq_ok_iff (hc.timed hs hr)).2
      ⟨htmetadata, htkind.trans hrkind.symm, qs', hqs', htperm.trans hqperm.symm⟩⟩

/-! ## Lists of snapshots -/

/-- **Lists of snapshots that are changed one by one.** -/
def Image (c : Change) : List Snapshot → List Snapshot → Prop :=
  List.Forall₂ fun s t => c.apply s = .ok t

open Collection (SameContent Agreeing Distinct headers content)

variable {ss ss' ts ts' : List Snapshot}

theorem Image.timed (hc : c.Lawful) (h : c.Image ss ss') (hss : ∀ s ∈ ss, s.Timed) :
    ∀ s ∈ ss', s.Timed := by
  intro s' hs'
  obtain ⟨s, hs, happly⟩ := exists_of_mem_right h hs'
  exact hc.timed (hss s hs) happly

def turnsHeader (c : Change) (h h' : Metadata × Kind) : Prop :=
  c.metadata h.1 = .ok h'.1 ∧ h'.2 = h.2

/-- What becomes of the points in the content of snapshots. -/
def turnsEntry (c : Change) (e e' : (Metadata × Kind) × DataPoint) : Prop :=
  c.turnsHeader e.1 e'.1 ∧ c.point e.2 = .ok e'.2

theorem turnsHeader_of_apply (h : c.apply s = .ok t) : c.turnsHeader s.header t.header := by
  obtain ⟨hmetadata, hkind, -⟩ := of_apply_eq_ok h
  exact ⟨hmetadata, hkind⟩

/-- There is only one thing that can become of a point. -/
theorem rightUnique_turnsEntry (c : Change) : Relator.RightUnique c.turnsEntry := by
  rintro e ⟨⟨m, k⟩, p⟩ ⟨⟨m', k'⟩, p'⟩ ⟨⟨hm, hk⟩, hp⟩ ⟨⟨hm', hk'⟩, hp'⟩
  obtain rfl : m = m' := Except.ok.inj (hm.symm.trans hm')
  obtain rfl : k = k' := hk.trans hk'.symm
  obtain rfl : p = p' := Except.ok.inj (hp.symm.trans hp')
  rfl

theorem Image.mem_headers_iff (h : c.Image ss ss') (header : Metadata × Kind) :
    header ∈ headers ss' ↔ ∃ old ∈ headers ss, c.turnsHeader old header := by
  constructor
  · intro hheader
    obtain ⟨s', hs', rfl⟩ := List.mem_map.1 hheader
    obtain ⟨s, hs, happly⟩ := exists_of_mem_right h hs'
    exact ⟨s.header, List.mem_map_of_mem hs, turnsHeader_of_apply happly⟩
  · rintro ⟨old, hold, hturns⟩
    obtain ⟨s, hs, rfl⟩ := List.mem_map.1 hold
    obtain ⟨s', hs', happly⟩ := exists_of_mem_left h hs
    obtain ⟨hmetadata, hkind⟩ := turnsHeader_of_apply happly
    have hheader : header = s'.header := by
      refine Prod.ext (Except.ok.inj (hturns.1.symm.trans hmetadata)) ?_
      exact hturns.2.trans hkind.symm
    rw [hheader]
    exact List.mem_map_of_mem hs'

/-- The points of changed snapshots are the changed points, in another order perhaps. -/
theorem Image.exists_content (h : c.Image ss ss') :
    ∃ entries, List.Forall₂ c.turnsEntry (content ss) entries ∧ (content ss').Perm entries := by
  -- Induction on the snapshots and what they are changed into, in step.
  induction h with
  | nil => exact ⟨[], .nil, .refl _⟩
  | @cons s s' ss ss' happly _ ih =>
    obtain ⟨entries, hentries, hperm⟩ := ih
    obtain ⟨-, -, points, hpoints, hpointsperm⟩ := of_apply_eq_ok happly
    have hturns := turnsHeader_of_apply happly
    refine ⟨points.map (s'.header, ·) ++ entries, ?_, ?_⟩
    · refine List.rel_append ?_ hentries
      rw [Snapshot.entries, List.forall₂_map_left_iff, List.forall₂_map_right_iff]
      exact hpoints.imp fun p q hpq => ⟨hturns, hpq⟩
    · exact (hpointsperm.map _).append hperm

/-- **Lists of the same content are changed into lists of the same content.** -/
theorem Image.sameContent (hs : c.Image ss ss') (ht : c.Image ts ts') (h : SameContent ss ts) :
    SameContent ss' ts' := by
  constructor
  · intro header
    rw [hs.mem_headers_iff, ht.mem_headers_iff]
    simp only [h.headers]
  · obtain ⟨entries, hentries, hperm⟩ := hs.exists_content
    obtain ⟨entries', hentries', hperm'⟩ := ht.exists_content
    obtain ⟨others, hothers, hreorder⟩ := List.perm_comp_forall₂ h.content.symm hentries
    obtain rfl := List.right_unique_forall₂' c.rightUnique_turnsEntry hothers hentries'
    exact hperm.trans (hreorder.symm.trans hperm'.symm)

/-- **If a list can be changed, so can all of its content.** -/
theorem Image.exists_of_sameContent (hc : c.Lawful) (hs : c.Image ss ss') (h : SameContent ss ts) :
    ∃ ts', c.Image ts ts' := by
  apply exists_forall₂
  intro t ht
  obtain ⟨s, hsmem, hheader⟩ := h.symm.exists_header_eq ht
  obtain ⟨s', -, happly⟩ := exists_of_mem_left hs hsmem
  have hmetadata := (of_apply_eq_ok happly).1
  rw [(Snapshot.header_eq_iff.1 hheader).1] at hmetadata
  refine hc.exists_apply_eq_ok hmetadata fun p hp => ?_
  have hentry : (t.header, p) ∈ content ts :=
    List.mem_flatMap.2 ⟨t, ht, List.mem_map.2 ⟨p, hp, rfl⟩⟩
  obtain ⟨entries, hentries, -⟩ := hs.exists_content
  obtain ⟨e, -, hturns⟩ := exists_of_mem_left hentries (h.content.mem_iff.2 hentry)
  exact ⟨e.2, hturns.2⟩

/-- Changed snapshots have equal exposed names if and only if the snapshots do. -/
theorem Lawful.exposedName_eq_iff (hc : c.Lawful) {s' t' : Snapshot} (hs : c.apply s = .ok s')
    (ht : c.apply t = .ok t') : s'.exposedName = t'.exposedName ↔ s.exposedName = t.exposedName :=
  hc.exposedName_iff (of_apply_eq_ok hs).1 (of_apply_eq_ok ht).1

/-- **Changed snapshots agree if and only if the snapshots do.** -/
theorem Image.agreeing_iff (hc : c.Lawful) (h : c.Image ss ss') : Agreeing ss' ↔ Agreeing ss := by
  constructor
  · intro hagreeing s hs t ht hname
    obtain ⟨s', hs', hsapply⟩ := exists_of_mem_left h hs
    obtain ⟨t', ht', htapply⟩ := exists_of_mem_left h ht
    obtain ⟨hmetadata, hkind⟩ := hagreeing s' hs' t' ht' ((hc.exposedName_eq_iff hsapply htapply).2 hname)
    obtain ⟨hsmetadata, hskind, -⟩ := of_apply_eq_ok hsapply
    obtain ⟨htmetadata, htkind, -⟩ := of_apply_eq_ok htapply
    rw [hmetadata] at hsmetadata
    exact ⟨hc.metadata_inj hsmetadata htmetadata, hskind.symm.trans (hkind.trans htkind)⟩
  · intro hagreeing s' hs' t' ht' hname
    obtain ⟨s, hs, hsapply⟩ := exists_of_mem_right h hs'
    obtain ⟨t, ht, htapply⟩ := exists_of_mem_right h ht'
    obtain ⟨hmetadata, hkind⟩ := hagreeing s hs t ht ((hc.exposedName_eq_iff hsapply htapply).1 hname)
    obtain ⟨hsmetadata, hskind, -⟩ := of_apply_eq_ok hsapply
    obtain ⟨htmetadata, htkind, -⟩ := of_apply_eq_ok htapply
    rw [hmetadata, htmetadata] at hsmetadata
    exact ⟨(Except.ok.inj hsmetadata).symm, hskind.trans (hkind.trans htkind.symm)⟩

/-- Snapshots of different names are changed into such. -/
theorem Image.distinct (hc : c.Lawful) (h : c.Image ss ss') (hss : Distinct ss) : Distinct ss' := by
  induction h with
  | nil => exact .nil
  | @cons s s' ss ss' happly h ih =>
    obtain ⟨hs, hss⟩ := List.pairwise_cons.1 hss
    refine List.pairwise_cons.2 ⟨fun t' ht' hname => ?_, ih hss⟩
    obtain ⟨t, ht, htapply⟩ := exists_of_mem_right h ht'
    exact hs t ht ((hc.exposedName_eq_iff happly htapply).1 hname)

end Change

/-! ## Collections -/

namespace Collection

/-- **A collection in which every snapshot is changed.** -/
def changed (change : Snapshot → Except Error Snapshot) (c : Collection) : Except Error Collection := do
  let snapshots ← changeAll change c.snapshots
  ofSnapshots snapshots

theorem changeAll_eq_mapM (change : Snapshot → Except Error Snapshot) (ss : List Snapshot) :
    changeAll change ss = ss.mapM change := by
  induction ss with
  | nil => rfl
  | cons s rest ih => rw [changeAll, List.mapM_cons, ih]

/-- Snapshots changed one after the other are changed one by one. -/
theorem changeAll_eq_ok_iff {change : Snapshot → Except Error Snapshot} {ss ts : List Snapshot} :
    changeAll change ss = .ok ts ↔ List.Forall₂ (fun s t => change s = .ok t) ss ts := by
  rw [changeAll_eq_mapM, mapM_eq_ok_iff]

/-- A changed collection has the changed snapshots. -/
theorem mem_of_changed {change : Snapshot → Except Error Snapshot} {c d : Collection}
    (h : changed change c = .ok d) {t : Snapshot} :
    t ∈ d.snapshots ↔ ∃ s ∈ c.snapshots, change s = .ok t := by
  obtain ⟨ts, hts, hd⟩ := bind_eq_ok_iff.1 h
  rw [changeAll_eq_ok_iff] at hts
  rw [(perm_of_ofSnapshots hd).mem_iff]
  constructor
  · exact exists_of_mem_right hts
  · rintro ⟨s, hs, hst⟩
    obtain ⟨t', ht', hst'⟩ := exists_of_mem_left hts hs
    cases hst.symm.trans hst'
    exact ht'

end Collection

open Collection (merged changed changeAll)

/-- **A collection can be changed if all of its snapshots can be**: their names stay different. -/
theorem Change.Lawful.exists_changed_iff {c : Change} (hc : c.Lawful) {col : Collection} :
    (∃ d, changed c.apply col = .ok d) ↔ ∀ s ∈ col.snapshots, ∃ t, c.apply s = .ok t := by
  simp only [changed, bind_eq_ok_iff, Collection.changeAll_eq_ok_iff]
  constructor
  · rintro ⟨d, ts, himage, -⟩ s hs
    obtain ⟨t, -, happly⟩ := exists_of_mem_left himage hs
    exact ⟨t, happly⟩
  · intro hall
    obtain ⟨ts, himage⟩ := exists_forall₂ hall
    obtain ⟨d, hd, -⟩ := Collection.ofSnapshots_of_distinct
      (Change.Image.distinct hc himage col.distinct_snapshots)
    exact ⟨d, ts, himage, hd⟩

/-- **Changing what is merged is merging what is changed**: both succeed or fail together, with the same
collection. -/
theorem Change.Lawful.merged_changed_eq_ok_iff {c : Change} (hc : c.Lawful) {ss : List Snapshot}
    (hss : ∀ s ∈ ss, s.Timed) (result : Collection) :
    (merged ss >>= changed c.apply) = .ok result ↔ (changeAll c.apply ss >>= merged) = .ok result := by
  simp only [changed, bind_eq_ok_iff, Collection.changeAll_eq_ok_iff]
  constructor
  · rintro ⟨first, hfirst, changedFirst, hchangedFirst, hresult⟩
    have hcontent := (Collection.merged_eq_ok_iff hss).1 hfirst
    obtain ⟨ss', hss'⟩ := Change.Image.exists_of_sameContent hc hchangedFirst hcontent
    refine ⟨ss', hss', (Collection.merged_eq_ok_iff (Change.Image.timed hc hss' hss)).2 ?_⟩
    exact (Collection.sameContent_of_ofSnapshots hresult).trans
      (Change.Image.sameContent hchangedFirst hss' hcontent)
  · rintro ⟨ss', hss', hresult⟩
    have htimed := Change.Image.timed hc hss' hss
    have hagreeing : Collection.Agreeing ss :=
      (Change.Image.agreeing_iff hc hss').1 (Collection.exists_merged_iff.1 ⟨result, hresult⟩)
    obtain ⟨first, hfirst⟩ := Collection.exists_merged_iff.2 hagreeing
    have hcontent := (Collection.merged_eq_ok_iff hss).1 hfirst
    obtain ⟨changedFirst, hchangedFirst⟩ := Change.Image.exists_of_sameContent hc hss' hcontent.symm
    obtain ⟨second, hsecond, -⟩ := Collection.ofSnapshots_of_distinct
      (Change.Image.distinct hc hchangedFirst first.distinct_snapshots)
    refine ⟨first, hfirst, changedFirst, hchangedFirst, ?_⟩
    have hresults : Collection.SameContent result.snapshots second.snapshots :=
      ((Collection.merged_eq_ok_iff htimed).1 hresult).trans
        ((Change.Image.sameContent hss' hchangedFirst hcontent.symm).trans
          (Collection.sameContent_of_ofSnapshots hsecond).symm)
    rw [Collection.eq_of_sameContent (((Collection.merged_eq_ok_iff htimed).1 hresult).timed htimed) hresults]
    exact hsecond

end Telemetry
