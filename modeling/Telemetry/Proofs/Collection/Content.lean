import Mathlib.Data.List.Nodup
import Telemetry.Collection
import Telemetry.Proofs.Arrangement
import Telemetry.Proofs.Snapshot.Canonical

/-!
# The content of snapshots

What counts in a list of snapshots is which metrics there are, each with its metadata and kind, and which
points every metric has. Neither the order of the snapshots nor the way in which the points of a metric are
spread over several of them belongs to the content.

## Main definitions

* `Collection.headers`, `Collection.content`: metadata and kinds in a list of snapshots, and its points, each
  with the metadata and the kind under which it stands
* `Collection.SameContent`: lists of snapshots with the same content
* `Collection.Agreeing`: lists in which snapshots of one exposed name agree in metadata and kind
* `Collection.Distinct`: lists of snapshots of different exposed names
* `Collection.pointsNamed`: the points of all snapshots of an exposed name

## Main results

* `Collection.SameContent.perm_pointsNamed`: lists of the same content have the same points of every name
* `Collection.eq_of_sameContent`: collections of the same content are equal
-/

namespace Telemetry

namespace Snapshot

/-- **What snapshots of one metric have in common**: metadata and kind. -/
def header (s : Snapshot) : Metadata × Kind :=
  (s.metadata, s.kind)

/-- The points of a snapshot, each with the metadata and the kind under which it stands. -/
def entries (s : Snapshot) : List ((Metadata × Kind) × DataPoint) :=
  s.points.map (s.header, ·)

theorem header_eq_iff {s t : Snapshot} :
    s.header = t.header ↔ s.metadata = t.metadata ∧ s.kind = t.kind := by
  rw [header, header, Prod.mk.injEq]

theorem exposedName_eq_of_header {s t : Snapshot} (h : s.header = t.header) :
    s.exposedName = t.exposedName := by
  rw [exposedName, exposedName, (header_eq_iff.1 h).1]

end Snapshot

namespace Collection

/-! ## Content -/

/-- The metadata and kinds in a list of snapshots. -/
def headers (snapshots : List Snapshot) : List (Metadata × Kind) :=
  snapshots.map Snapshot.header

/-- **The points in a list of snapshots**, each with the metadata and the kind under which it stands. -/
def content (snapshots : List Snapshot) : List ((Metadata × Kind) × DataPoint) :=
  snapshots.flatMap Snapshot.entries

/-- **Lists of snapshots with the same content**: the same metrics, each with the same points. -/
structure SameContent (ss ts : List Snapshot) : Prop where
  headers : ∀ h, h ∈ headers ss ↔ h ∈ headers ts
  content : (content ss).Perm (content ts)

variable {ss ts us vs : List Snapshot}

theorem headers_append (ss ts : List Snapshot) : headers (ss ++ ts) = headers ss ++ headers ts :=
  List.map_append

theorem content_append (ss ts : List Snapshot) : content (ss ++ ts) = content ss ++ content ts :=
  List.flatMap_append

namespace SameContent

@[refl] theorem refl (ss : List Snapshot) : SameContent ss ss :=
  ⟨fun _ => Iff.rfl, .refl _⟩

theorem symm (h : SameContent ss ts) : SameContent ts ss :=
  ⟨fun header => (h.headers header).symm, h.content.symm⟩

theorem trans (h : SameContent ss ts) (h' : SameContent ts us) : SameContent ss us :=
  ⟨fun header => (h.headers header).trans (h'.headers header), h.content.trans h'.content⟩

theorem append (h : SameContent ss ts) (h' : SameContent us vs) :
    SameContent (ss ++ us) (ts ++ vs) := by
  constructor
  · intro header
    rw [headers_append, headers_append, List.mem_append, List.mem_append, h.headers, h'.headers]
  · rw [content_append, content_append]
    exact h.content.append h'.content

theorem cons (s : Snapshot) (h : SameContent ss ts) : SameContent (s :: ss) (s :: ts) :=
  append (refl [s]) h

/-- The order of snapshots does not belong to their content. -/
theorem of_perm (h : ss.Perm ts) : SameContent ss ts :=
  ⟨fun _ => (h.map _).mem_iff, h.flatMap_right _⟩

theorem exists_header_eq (h : SameContent ss ts) {s : Snapshot} (hs : s ∈ ss) :
    ∃ t ∈ ts, t.header = s.header := by
  have hmem : s.header ∈ Collection.headers ts := (h.headers _).1 (List.mem_map_of_mem hs)
  obtain ⟨t, ht, heq⟩ := List.mem_map.1 hmem
  exact ⟨t, ht, heq⟩

/-- Lists of the same content have the same exposed names. -/
theorem mem_exposedNames_iff (h : SameContent ss ts) (name : String) :
    name ∈ ss.map Snapshot.exposedName ↔ name ∈ ts.map Snapshot.exposedName := by
  have hsub {ss ts : List Snapshot} (h : SameContent ss ts) (hname : name ∈ ss.map Snapshot.exposedName) :
      name ∈ ts.map Snapshot.exposedName := by
    obtain ⟨s, hs, rfl⟩ := List.mem_map.1 hname
    obtain ⟨t, ht, heq⟩ := h.exists_header_eq hs
    exact List.mem_map.2 ⟨t, ht, Snapshot.exposedName_eq_of_header heq⟩
  exact ⟨hsub h, hsub h.symm⟩

theorem timed (h : SameContent ss ts) (hts : ∀ t ∈ ts, t.Timed) : ∀ s ∈ ss, s.Timed := by
  intro s hs p hp
  have hentry : (s.header, p) ∈ Collection.content ss :=
    List.mem_flatMap.2 ⟨s, hs, List.mem_map.2 ⟨p, hp, rfl⟩⟩
  obtain ⟨t, ht, hpt⟩ := List.mem_flatMap.1 (h.content.mem_iff.1 hentry)
  obtain ⟨q, hq, heq⟩ := List.mem_map.1 hpt
  rw [← (Prod.mk.inj heq).2]
  exact hts t ht q hq

end SameContent

/-! ## Points of a name -/

/-- **The points of all snapshots of an exposed name.** -/
def pointsNamed (snapshots : List Snapshot) (name : String) : List DataPoint :=
  (snapshots.filter (·.exposedName == name)).flatMap (·.points)

/-- The points of a name are found in the content. -/
theorem pointsNamed_eq_filterMap (ss : List Snapshot) (name : String) :
    pointsNamed ss name =
      (content ss).filterMap fun entry =>
        if entry.1.1.exposedName = name then some entry.2 else none := by
  induction ss with
  | nil => rfl
  | cons s rest ih =>
    rw [content, List.flatMap_cons, List.filterMap_append, ← content, ← ih, Snapshot.entries,
      List.filterMap_map]
    by_cases hname : s.exposedName = name
    · have hall : (s.points.filterMap fun p => if s.exposedName = name then some p else none) =
          s.points := by
        simp [hname]
      rw [pointsNamed, List.filter_cons_of_pos (by simpa using hname), List.flatMap_cons, ← pointsNamed]
      exact congrArg (· ++ pointsNamed rest name) hall.symm
    · have hnone : (s.points.filterMap fun p => if s.exposedName = name then some p else none) =
          [] := by
        simp [hname]
      rw [pointsNamed, List.filter_cons_of_neg (by simpa using hname), ← pointsNamed]
      exact congrArg (· ++ pointsNamed rest name) hnone.symm

/-- **Lists of the same content have the same points of every name.** -/
theorem SameContent.perm_pointsNamed (h : SameContent ss ts) (name : String) :
    (pointsNamed ss name).Perm (pointsNamed ts name) := by
  rw [pointsNamed_eq_filterMap, pointsNamed_eq_filterMap]
  exact h.content.filterMap _

/-! ## Agreement -/

/-- **Lists in which snapshots of one exposed name agree** in metadata and kind. -/
def Agreeing (snapshots : List Snapshot) : Prop :=
  ∀ s ∈ snapshots, ∀ t ∈ snapshots, s.exposedName = t.exposedName →
    s.metadata = t.metadata ∧ s.kind = t.kind

instance (snapshots : List Snapshot) : Decidable (Agreeing snapshots) :=
  inferInstanceAs (Decidable (∀ s ∈ snapshots, ∀ t ∈ snapshots, s.exposedName = t.exposedName →
    s.metadata = t.metadata ∧ s.kind = t.kind))

/-- Whether snapshots agree is seen from their content. -/
theorem SameContent.agreeing (h : SameContent ss ts) (hss : Agreeing ss) : Agreeing ts := by
  intro s hs t ht hname
  obtain ⟨s', hs', hsheader⟩ := h.symm.exists_header_eq hs
  obtain ⟨t', ht', htheader⟩ := h.symm.exists_header_eq ht
  rw [← Snapshot.exposedName_eq_of_header hsheader, ← Snapshot.exposedName_eq_of_header htheader] at hname
  rw [← Snapshot.header_eq_iff, ← hsheader, ← htheader, Snapshot.header_eq_iff]
  exact hss s' hs' t' ht' hname

theorem SameContent.agreeing_iff (h : SameContent ss ts) : Agreeing ss ↔ Agreeing ts :=
  ⟨h.agreeing, h.symm.agreeing⟩

/-- **Lists of snapshots of different exposed names.** -/
def Distinct (snapshots : List Snapshot) : Prop :=
  snapshots.Pairwise fun s t => s.exposedName ≠ t.exposedName

/-- Snapshots of different exposed names are equal if their names are. -/
theorem Distinct.eq_of_exposedName (h : Distinct ss) {s t : Snapshot} (hs : s ∈ ss) (ht : t ∈ ss)
    (hname : s.exposedName = t.exposedName) : s = t := by
  have hnodup : (ss.map Snapshot.exposedName).Nodup := List.pairwise_map.2 h
  exact List.inj_on_of_nodup_map hnodup hs ht hname

theorem Distinct.agreeing (h : Distinct ss) : Agreeing ss := by
  intro s hs t ht hname
  rw [h.eq_of_exposedName hs ht hname]
  exact ⟨rfl, rfl⟩

/-- The points of a name are those of its only snapshot. -/
theorem Distinct.pointsNamed_eq (h : Distinct ss) {s : Snapshot} (hs : s ∈ ss) :
    pointsNamed ss s.exposedName = s.points := by
  induction ss with
  | nil => cases hs
  | cons a rest ih =>
    obtain ⟨ha, hrest⟩ := List.pairwise_cons.1 h
    rcases List.mem_cons.1 hs with rfl | hs
    · have hothers : rest.filter (·.exposedName == s.exposedName) = [] := by
        rw [List.filter_eq_nil_iff]
        intro t ht hname
        exact ha t ht (beq_iff_eq.1 hname).symm
      rw [pointsNamed, List.filter_cons_of_pos (by simp), hothers, List.flatMap_cons, List.flatMap_nil,
        List.append_nil]
    · have hname : ¬(a.exposedName == s.exposedName) = true := fun hname => ha s hs (beq_iff_eq.1 hname)
      rw [pointsNamed, List.filter_cons, if_neg hname]
      exact ih hrest hs

/-! ## Collections -/

theorem nameOrder_eq_eq_iff {s t : Snapshot} :
    Snapshot.nameOrder s t = .eq ↔ s.exposedName = t.exposedName :=
  show compare s.exposedName t.exposedName = .eq ↔ s.exposedName = t.exposedName from
    Std.LawfulEqCmp.compare_eq_iff_eq

/-- Snapshots without ties are in the order of their exposed names. -/
theorem increasing_nameOrder_iff :
    Increasing Snapshot.nameOrder ss ↔ (ss.map Snapshot.exposedName).Pairwise (· < ·) := by
  rw [List.pairwise_map]
  exact List.Pairwise.iff fun s t => compareOfLessAndEq_eq_lt

theorem distinct_snapshots (c : Collection) : Distinct c.snapshots := by
  refine c.increasing.imp fun {s t} hlt hname => ?_
  rw [nameOrder_eq_eq_iff.2 hname] at hlt
  cases hlt

/-- Snapshots of different exposed names make a collection. -/
theorem ofSnapshots_of_distinct (h : Distinct ss) :
    ∃ c, ofSnapshots ss = .ok c ∧ c.snapshots = arrange Snapshot.nameOrder ss := by
  have hfree : firstTie? Snapshot.nameOrder (arrange Snapshot.nameOrder ss) = none :=
    firstTie?_arrange_eq_none_iff.2 (h.imp fun hname htie => hname (nameOrder_eq_eq_iff.1 htie))
  unfold ofSnapshots
  split
  · next _ second htie =>
    rw [hfree] at htie
    cases htie
  · exact ⟨_, rfl, rfl⟩

/-- A collection has the snapshots that it is made of. -/
theorem perm_of_ofSnapshots {c : Collection} (h : ofSnapshots ss = .ok c) : c.snapshots.Perm ss := by
  unfold ofSnapshots at h
  split at h
  · cases h
  · cases h
    exact arrange_perm Snapshot.nameOrder ss

/-- A collection has the content of the snapshots that it is made of. -/
theorem sameContent_of_ofSnapshots {c : Collection} (h : ofSnapshots ss = .ok c) :
    SameContent c.snapshots ss :=
  .of_perm (perm_of_ofSnapshots h)

/-- **Collections of the same content are equal**, if all timestamps are numbers. -/
theorem eq_of_sameContent {c d : Collection} (htimed : ∀ s ∈ c.snapshots, s.Timed)
    (h : SameContent c.snapshots d.snapshots) : c = d := by
  have hmem {c d : Collection} (htimed : ∀ s ∈ c.snapshots, s.Timed)
      (h : SameContent c.snapshots d.snapshots) (s : Snapshot) (hs : s ∈ c.snapshots) :
      s ∈ d.snapshots := by
    obtain ⟨t, ht, hheader⟩ := h.exists_header_eq hs
    have hpoints := h.perm_pointsNamed s.exposedName
    rw [c.distinct_snapshots.pointsNamed_eq hs, ← Snapshot.exposedName_eq_of_header hheader,
      d.distinct_snapshots.pointsNamed_eq ht] at hpoints
    obtain ⟨hmetadata, hkind⟩ := Snapshot.header_eq_iff.1 hheader
    rw [Snapshot.eq_of_perm (htimed s hs) hmetadata.symm hkind.symm hpoints]
    exact ht
  exact Collection.ext (c.increasing.eq_of_mem_iff d.increasing fun s =>
    ⟨hmem htimed h s, hmem (h.symm.timed htimed) h.symm s⟩)

end Collection

end Telemetry
