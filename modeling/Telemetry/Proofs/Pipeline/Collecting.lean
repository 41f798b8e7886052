import Telemetry.Pipeline
import Telemetry.Proofs.Collection.Change

/-!
# Collecting

A pipeline merges the snapshots of its collectors, and renames and relabels the collection. It might as well
rename and relabel every snapshot before merging: a text in front of all names, and labels at all points, are
changes that can be made before merging or after.

## Main definitions

* `Change.prefixed`, `Change.labelled`: a text in front of the name, and labels at every point
* `PipelineSettings.changeSnapshot`: a snapshot as settings change it

## Main results

* `Change.lawful_prefixed`, `Change.lawful_labelled`: both can be made before merging or after
* `PipelineSettings.apply_eq_ok_iff`: the order of merging and changing does not matter to settings
* `Pipeline.collect_eq_ok_iff`: a pass merges the changed snapshots of its collectors
-/

namespace Telemetry

open Naming (exposed)

/-! ## A text in front of the name -/

theorem exposed_append (a b : String) : exposed (a ++ b) = exposed a ++ exposed b := by
  apply String.toList_inj.1
  simp

/-- **A text in front of the name** leaves the rest of the metadata alone. -/
theorem Metadata.of_withNamePrefix_eq_ok {m m' : Metadata} {lead : String}
    (h : m.withNamePrefix lead = .ok m') :
    m'.name = lead ++ m.name ∧ m'.help = m.help ∧ m'.unit = m.unit := by
  have hunit (name : String) : checkUnit name m.unitArgument = .ok m.unit := by
    unfold unitArgument
    cases m.unit <;> rfl
  simp only [withNamePrefix, make, bind_eq_ok_iff, hunit] at h
  obtain ⟨⟨name, hlegal⟩, hname, unit, hunits, h⟩ := h
  cases hunits
  cases h
  refine ⟨?_, rfl, rfl⟩
  unfold checkName at hname
  dsimp only at hname
  split at hname
  · cases hname
  · cases hname
    rfl

namespace Change

/-- **A text in front of the name.** -/
def prefixed (lead : String) : Change where
  metadata m := m.withNamePrefix lead
  point := .ok

theorem lawful_prefixed (lead : String) : (prefixed lead).Lawful where
  hasUnit h := by
    rw [Metadata.hasUnit, (Metadata.of_withNamePrefix_eq_ok h).2.2, Metadata.hasUnit]
  exposedName_iff hm hn := by
    rw [Metadata.exposedName, Metadata.exposedName, (Metadata.of_withNamePrefix_eq_ok hm).1,
      (Metadata.of_withNamePrefix_eq_ok hn).1, exposed_append, exposed_append]
    exact String.append_right_inj _
  metadata_inj hm hn := by
    obtain ⟨hname, hhelp, hunit⟩ := Metadata.of_withNamePrefix_eq_ok hm
    obtain ⟨hname', hhelp', hunit'⟩ := Metadata.of_withNamePrefix_eq_ok hn
    apply Metadata.ext
    · exact (String.append_right_inj lead).1 (hname.symm.trans hname')
    · exact hhelp.symm.trans hhelp'
    · exact hunit.symm.trans hunit'
  pointClass h := by
    cases h
    rfl
  isTimed h := by
    cases h
    rfl

/-- Points that are left alone stay as they are. -/
theorem mapM_ok (points : List DataPoint) : points.mapM (Except.ok (ε := Error)) = .ok points := by
  rw [mapM_eq_ok_iff]
  exact List.forall₂_same.2 fun _ _ => rfl

theorem apply_prefixed (lead : String) : (prefixed lead).apply = fun s => s.withNamePrefix lead := by
  funext s
  simp only [apply, prefixed, mapM_ok]
  rfl

/-! ## Labels at every point -/

/-- **Labels at every point**, if what is handed over for them stands for labels. -/
def labelled (labels : LabelArgument) : Change where
  metadata m := labels.resolve.map fun _ => m
  point p := do
    let extra ← labels.resolve
    let union ← p.labels.merge extra
    return p.relabel union

theorem eq_of_labelled_metadata {labels : LabelArgument} {m m' : Metadata}
    (h : (labelled labels).metadata m = .ok m') : m' = m := by
  unfold labelled at h
  dsimp only at h
  cases hresolve : labels.resolve with
  | error e =>
    rw [hresolve] at h
    cases h
  | ok extra =>
    rw [hresolve] at h
    cases h
    rfl

theorem exists_relabel_of_labelled_point {labels : LabelArgument} {p p' : DataPoint}
    (h : (labelled labels).point p = .ok p') : ∃ union, p' = p.relabel union := by
  simp only [labelled, bind_eq_ok_iff] at h
  obtain ⟨extra, -, union, -, h⟩ := h
  cases h
  exact ⟨union, rfl⟩

theorem lawful_labelled (labels : LabelArgument) : (labelled labels).Lawful where
  hasUnit h := by rw [eq_of_labelled_metadata h]
  exposedName_iff hm hn := by rw [eq_of_labelled_metadata hm, eq_of_labelled_metadata hn]
  metadata_inj hm hn := (eq_of_labelled_metadata hm).symm.trans (eq_of_labelled_metadata hn)
  pointClass h := by
    obtain ⟨union, rfl⟩ := exists_relabel_of_labelled_point h
    rfl
  isTimed h := by
    obtain ⟨union, rfl⟩ := exists_relabel_of_labelled_point h
    rfl

theorem extendPoints_eq_mapM (extra : Labels) (points : List DataPoint) :
    Snapshot.extendPoints extra points =
      points.mapM fun p => do
        let union ← p.labels.merge extra
        return p.relabel union := by
  induction points with
  | nil => rfl
  | cons p rest ih =>
    rw [Snapshot.extendPoints, List.mapM_cons, ih]
    cases p.labels.merge extra <;> rfl

theorem apply_labelled (labels : LabelArgument) :
    (labelled labels).apply = fun s => s.withLabels labels := by
  funext s
  simp only [apply, labelled, Snapshot.withLabels, Snapshot.extendLabels, extendPoints_eq_mapM]
  cases labels.resolve <;> rfl

/-! ## No change -/

theorem lawful_unchanged : unchanged.Lawful where
  hasUnit h := by
    cases h
    rfl
  exposedName_iff hm hn := by
    cases hm
    cases hn
    rfl
  metadata_inj hm hn := by
    cases hm
    cases hn
    rfl
  pointClass h := by
    cases h
    rfl
  isTimed h := by
    cases h
    rfl

theorem apply_unchanged : unchanged.apply = .ok := by
  funext s
  simp only [apply, unchanged, mapM_ok]
  exact s.ofPoints_points

end Change

/-! ## Settings -/

/-- Where all arguments are snapshots, nothing is left behind them. -/
theorem SnapshotArgument.split_snapshots (ss : List Snapshot) : split (ss.map .snapshot) = (ss, none) := by
  induction ss with
  | nil => rfl
  | cons s rest ih => rw [List.map_cons, split, ih]

open Collection (merged changed changeAll)

namespace PipelineSettings

/-- A snapshot with the text of the settings in front of its name. -/
def renameSnapshot (cfg : PipelineSettings) (s : Snapshot) : Except Error Snapshot :=
  match cfg.nameLead with
  | none | some "" => .ok s
  | some lead => s.withNamePrefix lead

/-- A snapshot with the labels of the settings at all points. -/
def relabelSnapshot (cfg : PipelineSettings) (s : Snapshot) : Except Error Snapshot :=
  if cfg.constantLabels.isEmpty then .ok s
  else s.withLabels (.datum (labelsDatum cfg.constantLabels))

/-- **A snapshot as settings change it**: renamed and then relabelled. -/
def changeSnapshot (cfg : PipelineSettings) (s : Snapshot) : Except Error Snapshot :=
  cfg.renameSnapshot s >>= cfg.relabelSnapshot

def nameChange (cfg : PipelineSettings) : Change :=
  match cfg.nameLead with
  | none | some "" => .unchanged
  | some lead => .prefixed lead

def labelChange (cfg : PipelineSettings) : Change :=
  if cfg.constantLabels.isEmpty then .unchanged
  else .labelled (.datum (labelsDatum cfg.constantLabels))

theorem lawful_nameChange (cfg : PipelineSettings) : cfg.nameChange.Lawful := by
  unfold nameChange
  split
  · exact Change.lawful_unchanged
  · exact Change.lawful_unchanged
  · exact Change.lawful_prefixed _

theorem lawful_labelChange (cfg : PipelineSettings) : cfg.labelChange.Lawful := by
  unfold labelChange
  split
  · exact Change.lawful_unchanged
  · exact Change.lawful_labelled _

theorem apply_nameChange (cfg : PipelineSettings) : cfg.nameChange.apply = cfg.renameSnapshot := by
  funext s
  unfold nameChange renameSnapshot
  split
  · rw [Change.apply_unchanged]
  · rw [Change.apply_unchanged]
  · rw [Change.apply_prefixed]

theorem apply_labelChange (cfg : PipelineSettings) : cfg.labelChange.apply = cfg.relabelSnapshot := by
  funext s
  unfold labelChange relabelSnapshot
  split
  · rw [Change.apply_unchanged]
  · rw [Change.apply_labelled]

/-- A collection of unchanged snapshots is unchanged. -/
theorem changed_ok (c : Collection) : changed .ok c = .ok c := by
  have hall : changeAll .ok c.snapshots = .ok c.snapshots :=
    Collection.changeAll_eq_ok_iff.2 (List.forall₂_same.2 fun _ _ => rfl)
  rw [changed, hall]
  exact c.ofSnapshots_snapshots

theorem rename_eq (cfg : PipelineSettings) (c : Collection) : cfg.rename c = changed cfg.renameSnapshot c := by
  unfold rename
  split
  · next h =>
    have hstep : cfg.renameSnapshot = .ok := funext fun s => by simp only [renameSnapshot, h]
    rw [hstep, changed_ok]
  · next h =>
    have hstep : cfg.renameSnapshot = .ok := funext fun s => by simp only [renameSnapshot, h]
    rw [hstep, changed_ok]
  · next lead _ h =>
    have hstep : cfg.renameSnapshot = fun s => s.withNamePrefix lead := by
      funext s
      simp only [renameSnapshot, h]
    rw [hstep]
    rfl

theorem relabel_eq (cfg : PipelineSettings) (c : Collection) :
    cfg.relabel c = changed cfg.relabelSnapshot c := by
  unfold relabel
  split
  · next h =>
    have hstep : cfg.relabelSnapshot = .ok := funext fun s => if_pos h
    rw [hstep, changed_ok]
  · next h =>
    have hstep : cfg.relabelSnapshot = fun s => s.withLabels (.datum (labelsDatum cfg.constantLabels)) :=
      funext fun s => if_neg h
    rw [hstep]
    rfl

/-- Arguments that are all snapshots are merged as such. -/
theorem mergedArguments_snapshots (ss : List Snapshot) :
    Collection.mergedArguments (ss.map .snapshot) = merged ss := by
  simp only [Collection.mergedArguments, SnapshotArgument.split_snapshots]
  rfl

theorem changeAll_bind_eq_ok_iff {f g : Snapshot → Except Error Snapshot} {ss us : List Snapshot} :
    changeAll (fun s => f s >>= g) ss = .ok us ↔ ∃ ts, changeAll f ss = .ok ts ∧ changeAll g ts = .ok us := by
  simp only [Collection.changeAll_eq_ok_iff, bind_eq_ok_iff, forall₂_comp_iff]

/-- Merging, renaming and relabelling, one after the other. -/
theorem apply_snapshots_eq_ok_iff (cfg : PipelineSettings) (ss : List Snapshot) (c : Collection) :
    cfg.apply (ss.map .snapshot) = .ok c ↔
      ∃ d, (merged ss >>= changed cfg.renameSnapshot) = .ok d ∧ changed cfg.relabelSnapshot d = .ok c := by
  simp only [apply, mergedArguments_snapshots, bind_eq_ok_iff, rename_eq, relabel_eq]
  constructor
  · rintro ⟨first, hfirst, d, hd, hc⟩
    exact ⟨d, ⟨first, hfirst, hd⟩, hc⟩
  · rintro ⟨d, ⟨first, hfirst, hd⟩, hc⟩
    exact ⟨first, hfirst, d, hd, hc⟩

/-- **The order of merging and changing does not matter**: what settings make of snapshots is what becomes of
the changed snapshots when they are merged. -/
theorem apply_eq_ok_iff (cfg : PipelineSettings) {ss : List Snapshot} (hss : ∀ s ∈ ss, s.Timed)
    (c : Collection) :
    cfg.apply (ss.map .snapshot) = .ok c ↔ (changeAll cfg.changeSnapshot ss >>= merged) = .ok c := by
  have hrename := cfg.lawful_nameChange
  have hrelabel := cfg.lawful_labelChange
  have hfirst (d : Collection) := hrename.merged_changed_eq_ok_iff hss d
  have hsecond {ts : List Snapshot} (hts : changeAll cfg.renameSnapshot ss = .ok ts) :
      (merged ts >>= changed cfg.relabelSnapshot) = .ok c ↔
        (changeAll cfg.relabelSnapshot ts >>= merged) = .ok c := by
    rw [← apply_nameChange, Collection.changeAll_eq_ok_iff] at hts
    rw [← apply_labelChange]
    exact hrelabel.merged_changed_eq_ok_iff (Change.Image.timed hrename hts hss) c
  rw [apply_nameChange] at hfirst
  rw [apply_snapshots_eq_ok_iff]
  constructor
  · rintro ⟨d, hd, hc⟩
    obtain ⟨ts, hts, hmerged⟩ := bind_eq_ok_iff.1 ((hfirst d).1 hd)
    obtain ⟨us, hus, hresult⟩ := bind_eq_ok_iff.1 ((hsecond hts).1 (bind_eq_ok_iff.2 ⟨d, hmerged, hc⟩))
    exact bind_eq_ok_iff.2 ⟨us, changeAll_bind_eq_ok_iff.2 ⟨ts, hts, hus⟩, hresult⟩
  · intro h
    obtain ⟨us, hall, hresult⟩ := bind_eq_ok_iff.1 h
    obtain ⟨ts, hts, hus⟩ := changeAll_bind_eq_ok_iff.1 hall
    obtain ⟨d, hd, hc⟩ := bind_eq_ok_iff.1 ((hsecond hts).2 (bind_eq_ok_iff.2 ⟨us, hus, hresult⟩))
    exact ⟨d, (hfirst d).2 (bind_eq_ok_iff.2 ⟨ts, hts, hd⟩), hc⟩

end PipelineSettings

/-! ## Pipelines -/

/-- Sources that all give snapshots give them all. -/
theorem Source.gatherAll_eq_ok {γ : Type} [Source γ] {sources : List γ} {results : List (List Snapshot)}
    (h : List.Forall₂ (fun source ss => (Source.gather source).1 = .ok (ss.map .snapshot)) sources
      results) : (Source.gatherAll sources).1 = .ok (results.flatten.map .snapshot) := by
  -- Induction on the sources: none fails, so none is left out.
  induction h with
  | nil => rfl
  | @cons source ss sources results hsource _ ih =>
    unfold Source.gatherAll
    split
    · next cause after heq =>
      rw [heq] at hsource
      cases hsource
    · next snapshots after heq =>
      rw [heq] at hsource
      cases hsource
      show (Source.gatherAll sources).1.map _ = _
      rw [ih, List.flatten_cons, List.map_append]
      rfl

/-- **A pass merges the changed snapshots of its collectors.** Changing them after merging, as the pipeline
does, succeeds in the same cases and gives the same collection. -/
theorem Pipeline.collect_eq_ok_iff {γ ε : Type} [Source γ] (p : Pipeline γ ε)
    {results : List (List Snapshot)}
    (hresults : List.Forall₂ (fun source ss => (Source.gather source).1 = .ok (ss.map .snapshot))
      p.collectors results)
    (htimed : ∀ ss ∈ results, ∀ s ∈ ss, s.Timed) (c : Collection) :
    p.collect.1 = .ok c ↔
      (changeAll p.settings.changeSnapshot results.flatten >>= merged) = .ok c := by
  have hgather := Source.gatherAll_eq_ok hresults
  have hcollect : p.collect.1 = p.settings.apply (results.flatten.map .snapshot) := by
    show (Source.gatherAll p.collectors).1 >>= p.settings.apply = _
    rw [hgather]
    rfl
  rw [hcollect]
  refine p.settings.apply_eq_ok_iff (fun s hs => ?_) c
  obtain ⟨ss, hss, hmem⟩ := List.mem_flatten.1 hs
  exact htimed ss hss s hmem

open Collection (gauge firstHalf secondHalf)

/-- A pipeline that puts a text in front of the names of what two collectors give. -/
def Pipeline.halves : Pipeline Collector Exporter :=
  .new ⟨some "app.", []⟩ [⟨.ok [.snapshot firstHalf]⟩, ⟨.ok [.snapshot secondHalf]⟩] []

/-- The metadata of both halves behind the text. -/
def Pipeline.renamedUp : Metadata :=
  ⟨"app.up", none, none, by decide⟩

/-- The two halves can be renamed, and agree then. -/
theorem PipelineSettings.exists_changeAll_halves :
    ∃ ss, changeAll (changeSnapshot ⟨some "app.", []⟩) [firstHalf, secondHalf] = .ok ss ∧
      Collection.Agreeing ss := by
  have hname : firstHalf.metadata.withNamePrefix "app." = .ok Pipeline.renamedUp :=
    Pipeline.renamedUp.make_parts
  have hchange (value : Datum) : changeSnapshot ⟨some "app.", []⟩ (gauge firstHalf.metadata value) =
      .ok (gauge Pipeline.renamedUp value) := by
    have hrenamed : (gauge firstHalf.metadata value).withNamePrefix "app." =
        .ok (gauge Pipeline.renamedUp value) := by
      rw [Snapshot.withNamePrefix]
      show (firstHalf.metadata.withNamePrefix "app." >>= _) = _
      rw [hname]
      exact (gauge Pipeline.renamedUp value).ofPoints_points
    show ((gauge firstHalf.metadata value).withNamePrefix "app." >>= .ok) = _
    rw [hrenamed]
    rfl
  refine ⟨_, Collection.changeAll_eq_ok_iff.2 (.cons (hchange _) (.cons (hchange _) .nil)), ?_⟩
  decide

theorem Pipeline.collect_halves :
    List.Forall₂ (fun source ss => (Source.gather source).1 = .ok (ss.map .snapshot))
        Pipeline.halves.collectors [[firstHalf], [secondHalf]] ∧
      (∀ ss ∈ [[firstHalf], [secondHalf]], ∀ s ∈ ss, s.Timed) ∧
      ∃ c, Pipeline.halves.collect.1 = .ok c ∧
        (changeAll Pipeline.halves.settings.changeSnapshot [firstHalf, secondHalf] >>= merged) = .ok c := by
  have hresults : List.Forall₂ (fun source ss => (Source.gather source).1 = .ok (ss.map .snapshot))
      Pipeline.halves.collectors [[firstHalf], [secondHalf]] := .cons rfl (.cons rfl .nil)
  have htimed : ∀ ss ∈ [[firstHalf], [secondHalf]], ∀ s ∈ ss, s.Timed := by decide
  obtain ⟨ss, hss, hagreeing⟩ := PipelineSettings.exists_changeAll_halves
  obtain ⟨c, hc⟩ := Collection.exists_merged_iff.2 hagreeing
  have hmerged : (changeAll Pipeline.halves.settings.changeSnapshot [firstHalf, secondHalf] >>= merged) =
      .ok c := bind_eq_ok_iff.2 ⟨ss, hss, hc⟩
  exact ⟨hresults, htimed, c, (Pipeline.halves.collect_eq_ok_iff hresults htimed c).2 hmerged, hmerged⟩

end Telemetry
