import Telemetry.Proofs.Collection.Content

/-!
# Merging collections

Merging keeps content: a collection that snapshots are merged into has the same metrics and the same points of
each. It succeeds exactly if snapshots of one exposed name agree in metadata and kind. As collections of the
same content are equal, nothing else about the snapshots counts, neither their order nor how often they are
merged on the way.

## Main results

* `Collection.absorb_cases`: what becomes of snapshots of different metrics with one more
* `Collection.absorbAll_cases`: what becomes of them with any number more
* `Collection.merged_eq_ok_iff`: snapshots are merged into the collection of their content, and no other
* `Collection.merged_order_independent`: the order of the snapshots does not matter, and no point is lost
* `Collection.merged_append_eq_ok_iff`: merging what has been merged in parts is merging all at once
-/

namespace Telemetry.Collection

variable {ss ts : List Snapshot}

/-! ## One more snapshot -/

/-- A merged snapshot is of the metric of both, with the points of both settled. -/
theorem of_merge_eq_ok {s t r : Snapshot} (h : s.merge t = .ok r) :
    r.header = s.header ∧ s.header = t.header ∧
      r.points = settle DataPoint.precedes (s.points ++ t.points) := by
  have hheader : s.header = t.header := Snapshot.header_eq_iff.2 (Snapshot.merge_eq_ok_iff.1 ⟨r, h⟩)
  unfold Snapshot.merge at h
  split at h
  · cases h
  · cases h
    exact ⟨rfl, hheader, rfl⟩

/-- A merged snapshot has the content of both. -/
theorem sameContent_of_merge {s t r : Snapshot} (h : s.merge t = .ok r) : SameContent [r] [s, t] := by
  obtain ⟨hr, ht, hpoints⟩ := of_merge_eq_ok h
  constructor
  · intro header
    simp [headers, hr, ← ht]
  · have hperm := (perm_settle DataPoint.precedes (s.points ++ t.points)).map (s.header, ·)
    rw [List.map_append] at hperm
    simpa [content, Snapshot.entries, hr, ← ht, hpoints] using hperm

/-- Snapshots that cannot be merged are incompatible. -/
theorem category_of_merge_eq_error {s t : Snapshot} {e : Error} (h : s.merge t = .error e) :
    e.category = .incompatible ∧ s.header ≠ t.header := by
  have hheader : s.header ≠ t.header := by
    intro hheader
    obtain ⟨r, hr⟩ := Snapshot.merge_eq_ok_iff.2 (Snapshot.header_eq_iff.1 hheader)
    rw [hr] at h
    cases h
  refine ⟨?_, hheader⟩
  unfold Snapshot.merge at h
  split at h
  · next cause hcause =>
    cases h
    unfold Snapshot.mergeError? at hcause
    split at hcause
    · cases hcause
      rfl
    · split at hcause
      · cases hcause
        rfl
      · cases hcause
  · cases h

/-- **One more snapshot** is taken in with its content, or is incompatible with one of the same name. -/
theorem absorb_cases (s : Snapshot) {known : List Snapshot} (hknown : Distinct known) :
    (∃ known', absorb s known = .ok known' ∧ Distinct known' ∧ SameContent known' (known ++ [s])) ∨
      ∃ e, absorb s known = .error e ∧ e.category = .incompatible ∧ ¬Agreeing (known ++ [s]) := by
  -- Induction on the snapshots that are known: the first is of the name, or it is left where it is.
  induction known with
  | nil => exact .inl ⟨[s], rfl, List.pairwise_singleton _ s, .refl _⟩
  | cons k rest ih =>
    obtain ⟨hk, hrest⟩ := List.pairwise_cons.1 hknown
    unfold absorb
    split
    · next hname =>
      cases hmerge : k.merge s with
      | error e =>
        refine .inr ⟨e, rfl, (category_of_merge_eq_error hmerge).1, fun hagreeing => ?_⟩
        apply (category_of_merge_eq_error hmerge).2
        exact Snapshot.header_eq_iff.2 (hagreeing k (by simp) s (by simp) hname)
      | ok both =>
        have hboth : both.exposedName = k.exposedName :=
          Snapshot.exposedName_eq_of_header (of_merge_eq_ok hmerge).1
        refine .inl ⟨both :: rest, rfl, List.pairwise_cons.2 ⟨fun t ht => ?_, hrest⟩, ?_⟩
        · rw [hboth]
          exact hk t ht
        · refine ((sameContent_of_merge hmerge).append (.refl rest)).trans (.of_perm ?_)
          exact (List.perm_append_comm : ([s] ++ rest).Perm (rest ++ [s])).cons k
    · next hname =>
      rcases ih hrest with ⟨others, hothers, hdistinct, hcontent⟩ | ⟨e, he, hcategory, hagreeing⟩
      · refine .inl ⟨k :: others, by rw [hothers]; rfl, ?_, hcontent.cons k⟩
        refine List.pairwise_cons.2 ⟨fun t ht => ?_, hdistinct⟩
        have hmem := (hcontent.mem_exposedNames_iff t.exposedName).1 (List.mem_map_of_mem ht)
        rw [List.map_append, List.mem_append] at hmem
        rcases hmem with hmem | hmem
        · obtain ⟨t', ht', heq⟩ := List.mem_map.1 hmem
          rw [← heq]
          exact hk t' ht'
        · rw [List.mem_singleton.1 hmem]
          exact hname
      · refine .inr ⟨e, by rw [he]; rfl, hcategory, fun h => hagreeing fun t ht u hu => ?_⟩
        exact h t (List.mem_cons_of_mem _ ht) u (List.mem_cons_of_mem _ hu)

/-! ## Any number more -/

/-- **Any number of snapshots** are taken in with their content, or some are incompatible. The content is the
invariant of the run. -/
theorem absorbAll_cases (ss : List Snapshot) {known : List Snapshot} (hknown : Distinct known) :
    (∃ known', absorbAll known ss = .ok known' ∧ Distinct known' ∧ SameContent known' (known ++ ss)) ∨
      ∃ e, absorbAll known ss = .error e ∧ e.category = .incompatible ∧ ¬Agreeing (known ++ ss) := by
  -- Induction on what is still to come, for whatever is known by then.
  induction ss generalizing known with
  | nil =>
    refine .inl ⟨known, rfl, hknown, ?_⟩
    rw [List.append_nil]
  | cons s rest ih =>
    have hsplit : known ++ s :: rest = known ++ [s] ++ rest := by simp
    rw [absorbAll, hsplit]
    rcases absorb_cases s hknown with ⟨next, hnext, hdistinct, hcontent⟩ | ⟨e, he, hcategory, hagreeing⟩
    · have hrest := hcontent.append (.refl rest)
      rw [hnext]
      rcases ih hdistinct with ⟨known', hall, hdistinct', hcontent'⟩ | ⟨e, he, hcategory, hagreeing⟩
      · exact .inl ⟨known', hall, hdistinct', hcontent'.trans hrest⟩
      · exact .inr ⟨e, he, hcategory, fun h => hagreeing (hrest.agreeing_iff.2 h)⟩
    · -- What was incompatible stays so, whatever comes after it.
      rw [he]
      refine .inr ⟨e, rfl, hcategory, fun h => hagreeing fun t ht u hu => ?_⟩
      exact h t (List.mem_append_left _ ht) u (List.mem_append_left _ hu)

/-- **Merging** keeps the content, or some snapshots are incompatible. -/
theorem merged_cases (ss : List Snapshot) :
    (∃ c, merged ss = .ok c ∧ SameContent c.snapshots ss ∧ Agreeing ss) ∨
      ∃ e, merged ss = .error e ∧ e.category = .incompatible ∧ ¬Agreeing ss := by
  have hnil : Distinct [] := .nil
  rcases absorbAll_cases ss hnil with
    ⟨known, hall, hdistinct, hcontent⟩ | ⟨e, he, hcategory, hagreeing⟩
  · obtain ⟨c, hc, -⟩ := ofSnapshots_of_distinct hdistinct
    refine .inl ⟨c, ?_, (sameContent_of_ofSnapshots hc).trans hcontent, hcontent.agreeing hdistinct.agreeing⟩
    rw [merged, hall]
    exact hc
  · refine .inr ⟨e, ?_, hcategory, hagreeing⟩
    rw [merged, he]
    rfl

/-- **Snapshots are merged into the collection of their content**, and no other. -/
theorem merged_eq_ok_iff (htimed : ∀ s ∈ ss, s.Timed) {c : Collection} :
    merged ss = .ok c ↔ SameContent c.snapshots ss := by
  constructor
  · intro h
    rcases merged_cases ss with ⟨d, hd, hcontent, -⟩ | ⟨e, he, -⟩
    · rw [h] at hd
      cases hd
      exact hcontent
    · rw [h] at he
      cases he
  · intro h
    rcases merged_cases ss with ⟨d, hd, hcontent, -⟩ | ⟨e, -, -, hagreeing⟩
    · -- There is only one collection of the content.
      rw [eq_of_sameContent (h.timed htimed) (h.trans hcontent.symm)]
      exact hd
    · exact absurd (h.agreeing c.distinct_snapshots.agreeing) hagreeing

/-- Exactly snapshots that agree can be merged. -/
theorem exists_merged_iff : (∃ c, merged ss = .ok c) ↔ Agreeing ss := by
  constructor
  · rintro ⟨c, hc⟩
    rcases merged_cases ss with ⟨-, -, -, hagreeing⟩ | ⟨e, he, -⟩
    · exact hagreeing
    · rw [hc] at he
      cases he
  · intro h
    rcases merged_cases ss with ⟨c, hc, -⟩ | ⟨e, -, -, hagreeing⟩
    · exact ⟨c, hc⟩
    · exact absurd h hagreeing

/-! ## Order and parts -/

/-- The exposed names of a collection increase. -/
theorem pairwise_exposedNames (c : Collection) : c.exposedNames.Pairwise (· < ·) :=
  increasing_nameOrder_iff.1 c.increasing

/-- **Merging does not depend on the order of the snapshots, and loses no point.** It succeeds exactly if
snapshots of one exposed name agree in metadata and kind. The collection then has one snapshot for each
exposed name, with the points of all snapshots of that name. -/
theorem merged_order_independent (hperm : ss.Perm ts) (htimed : ∀ s ∈ ss, s.Timed) :
    (Agreeing ss → ∃ c, merged ss = .ok c ∧ merged ts = .ok c ∧
      c.exposedNames.Pairwise (· < ·) ∧
      (∀ name, name ∈ c.exposedNames ↔ name ∈ ss.map Snapshot.exposedName) ∧
      ∀ s ∈ c.snapshots, s.points.Perm (pointsNamed ss s.exposedName) ∧
        ∀ t ∈ ss, t.exposedName = s.exposedName → t.metadata = s.metadata ∧ t.kind = s.kind) ∧
    (¬Agreeing ss → (∃ e, merged ss = .error e ∧ e.category = .incompatible) ∧
      ∃ e, merged ts = .error e ∧ e.category = .incompatible) := by
  have hsame := SameContent.of_perm hperm
  rcases merged_cases ss with ⟨c, hc, hcontent, hagreeing⟩ | ⟨e, he, hcategory, hagreeing⟩
  · refine ⟨fun _ => ⟨c, hc, ?_, c.pairwise_exposedNames, hcontent.mem_exposedNames_iff, ?_⟩,
      fun h => absurd hagreeing h⟩
    · exact (merged_eq_ok_iff fun t ht => htimed t (hperm.mem_iff.2 ht)).2 (hcontent.trans hsame)
    · -- The points of a name are those of its one snapshot in the collection.
      intro s hs
      have hpoints := hcontent.perm_pointsNamed s.exposedName
      rw [c.distinct_snapshots.pointsNamed_eq hs] at hpoints
      refine ⟨hpoints, fun t ht hname => ?_⟩
      obtain ⟨t', ht', hheader⟩ := hcontent.symm.exists_header_eq ht
      rw [← Snapshot.exposedName_eq_of_header hheader] at hname
      rw [c.distinct_snapshots.eq_of_exposedName ht' hs hname] at hheader
      exact Snapshot.header_eq_iff.1 hheader.symm
  · refine ⟨fun h => absurd h hagreeing, fun _ => ⟨⟨e, he, hcategory⟩, ?_⟩⟩
    rcases merged_cases ts with ⟨-, -, -, hts⟩ | ⟨e', he', hcategory', -⟩
    · exact absurd (hsame.agreeing_iff.2 hts) hagreeing
    · exact ⟨e', he', hcategory'⟩

def gauge (metadata : Metadata) (value : Datum) : Snapshot where
  kind := .gauge
  metadata := metadata
  points := [.ofParts .empty .zero .zero (.gauge value none)]
  unitAllowed _ := rfl
  classed p hp := by
    rw [List.mem_singleton.1 hp]
    rfl
  ordered := chained_singleton _

def firstHalf : Snapshot :=
  gauge ⟨"up", none, none, by decide⟩ (.whole 0)

def secondHalf : Snapshot :=
  gauge ⟨"up", none, none, by decide⟩ (.whole 1)

theorem merged_halves_order_independent :
    [firstHalf, secondHalf].Perm [secondHalf, firstHalf] ∧ (∀ s ∈ [firstHalf, secondHalf], s.Timed) ∧
      Agreeing [firstHalf, secondHalf] ∧
      ∃ c, merged [firstHalf, secondHalf] = .ok c ∧ merged [secondHalf, firstHalf] = .ok c := by
  have hperm : [firstHalf, secondHalf].Perm [secondHalf, firstHalf] := .swap _ _ _
  have htimed : ∀ s ∈ [firstHalf, secondHalf], s.Timed := by decide
  have hagreeing : Agreeing [firstHalf, secondHalf] := by decide
  obtain ⟨c, hc, hc', -⟩ := (merged_order_independent hperm htimed).1 hagreeing
  exact ⟨hperm, htimed, hagreeing, c, hc, hc'⟩

/-- **Merging what has been merged in parts is merging all at once**, and fails exactly if one of the parts
cannot be merged or the parts cannot be merged with each other. -/
theorem merged_append_eq_ok_iff (hss : ∀ s ∈ ss, s.Timed) (hts : ∀ t ∈ ts, t.Timed) (c : Collection) :
    merged (ss ++ ts) = .ok c ↔
      ∃ c₁ c₂, merged ss = .ok c₁ ∧ merged ts = .ok c₂ ∧
        merged (c₁.snapshots ++ c₂.snapshots) = .ok c := by
  have hall : ∀ s ∈ ss ++ ts, s.Timed := fun s hs => (List.mem_append.1 hs).elim (hss s) (hts s)
  have hparts (h : Agreeing (ss ++ ts)) : Agreeing ss ∧ Agreeing ts :=
    ⟨fun s hs t ht => h s (List.mem_append_left _ hs) t (List.mem_append_left _ ht),
      fun s hs t ht => h s (List.mem_append_right _ hs) t (List.mem_append_right _ ht)⟩
  have hcontents {c₁ c₂ : Collection} (h₁ : merged ss = .ok c₁) (h₂ : merged ts = .ok c₂) :
      SameContent (c₁.snapshots ++ c₂.snapshots) (ss ++ ts) :=
    ((merged_eq_ok_iff hss).1 h₁).append ((merged_eq_ok_iff hts).1 h₂)
  constructor
  · intro h
    obtain ⟨hagreeing₁, hagreeing₂⟩ := hparts (exists_merged_iff.1 ⟨c, h⟩)
    obtain ⟨c₁, h₁⟩ := exists_merged_iff.2 hagreeing₁
    obtain ⟨c₂, h₂⟩ := exists_merged_iff.2 hagreeing₂
    have hcontent := hcontents h₁ h₂
    refine ⟨c₁, c₂, h₁, h₂, (merged_eq_ok_iff (hcontent.timed hall)).2 ?_⟩
    exact ((merged_eq_ok_iff hall).1 h).trans hcontent.symm
  · rintro ⟨c₁, c₂, h₁, h₂, h⟩
    have hcontent := hcontents h₁ h₂
    rw [merged_eq_ok_iff (hcontent.timed hall)] at h
    exact (merged_eq_ok_iff hall).2 (h.trans hcontent)

theorem merged_halves_in_parts :
    (∀ s ∈ [firstHalf], s.Timed) ∧ (∀ t ∈ [secondHalf], t.Timed) ∧
      ∃ c c₁ c₂, merged ([firstHalf] ++ [secondHalf]) = .ok c ∧ merged [firstHalf] = .ok c₁ ∧
        merged [secondHalf] = .ok c₂ ∧ merged (c₁.snapshots ++ c₂.snapshots) = .ok c := by
  have hfirst : ∀ s ∈ [firstHalf], s.Timed := by decide
  have hsecond : ∀ t ∈ [secondHalf], t.Timed := by decide
  have hagreeing : Agreeing ([firstHalf] ++ [secondHalf]) := by decide
  obtain ⟨c, hc⟩ := exists_merged_iff.2 hagreeing
  obtain ⟨c₁, c₂, h₁, h₂, h⟩ := (merged_append_eq_ok_iff hfirst hsecond c).1 hc
  exact ⟨hfirst, hsecond, c, c₁, c₂, hc, h₁, h₂, h⟩

end Telemetry.Collection
