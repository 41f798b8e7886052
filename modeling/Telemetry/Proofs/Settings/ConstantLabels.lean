import Telemetry.Proofs.Exporter.Relabelled
import Telemetry.Proofs.Labels.Construction
import Telemetry.Proofs.Settings.Parts

/-!
# Constant labels

The settings of a pipeline may name labels that every point of every pass is given. They are checked when the settings
are read: name by name, as label names are. A label set asks for one thing more, which is about two names at a time: no
two of them may be exposed alike. So there are settings that are accepted, but whose labels make no label set, and with
which no pass can be relabelled that has anything to be relabelled.

## Main definitions

* `PipelineSettings.documentOf`: documents with constant labels

## Main results

* `PipelineSettings.exists_ofEntries_iff`: which constant labels are accepted
* `PipelineSettings.exists_ofDatum_iff`: which constant labels make a label set
* `PipelineSettings.exists_relabel_iff`, `PipelineSettings.relabel_eq_error`: what becomes of passes
* `PipelineSettings.constantLabels_applicable_iff`: which constant labels that are accepted can be applied
* `PipelineSettings.spellings_accepted_not_applicable`: labels that are accepted and cannot be applied
-/

namespace Telemetry.PipelineSettings

open Checked
open Naming (exposed)

variable {cfg s : PipelineSettings} {entries : List (Datum × Datum)} {labels : List (String × String)}
  {c : Collection} {l : Labels} {e : Error}

/-! ## Accepted labels -/

theorem texts_labelsDatum (labels : List (String × String)) : texts (labelsDatum labels) = .ok labels :=
  texts_eq_ok_iff.2 rfl

/-- Labels that are found under their key are those of the settings, and all of their names are legal. -/
theorem of_ofEntries_eq_ok (hlabels : Datum.lookup entries "constant_labels" = some (labelsDatum labels))
    (h : ofEntries entries = .ok s) :
    s.constantLabels = labels ∧ ∀ x ∈ labels, LabelName.problem? x.1 = none := by
  obtain ⟨-, hmember⟩ := ofEntries_eq_ok_iff.1 h
  rw [member_eq_ok_iff, hlabels] at hmember
  dsimp only at hmember
  rw [texts_labelsDatum, ensure_eq_ok_iff] at hmember
  obtain ⟨hsame, hfault⟩ := hmember
  cases hsame
  exact ⟨rfl, labelsFault?_eq_none_iff.1 hfault⟩

/-- **A document with constant labels** and nothing else. -/
def documentOf (labels : List (String × String)) : List (Datum × Datum) :=
  [(.text "constant_labels", labelsDatum labels)]

/-- **Which constant labels are accepted**: those with legal names. -/
theorem exists_ofEntries_iff :
    (∃ s, ofEntries (documentOf labels) = .ok s) ↔
      ∀ x ∈ labels, LabelName.problem? x.1 = none := by
  have hlookup : Datum.lookup (documentOf labels) "constant_labels" = some (labelsDatum labels) := rfl
  constructor
  · rintro ⟨s, h⟩
    exact (of_ofEntries_eq_ok hlookup h).2
  · intro hlegal
    refine ⟨⟨none, labels⟩, ofEntries_eq_ok_iff.2 ⟨rfl, ?_⟩⟩
    rw [member_eq_ok_iff, hlookup]
    exact ensure_eq_ok_iff.2 ⟨texts_labelsDatum labels, labelsFault?_eq_none_iff.2 hlegal⟩

/-! ## Label sets -/

/-- Constant labels are made a label set by their names and values. -/
theorem ofDatum_labelsDatum (labels : List (String × String)) :
    Labels.ofDatum (labelsDatum labels) =
      Labels.ofPairs (labels.map fun x => .text x.1) (labels.map fun x => .text x.2) := by
  have hnames : (labels.map fun x => (Datum.text x.1, Datum.text x.2)).map Prod.fst =
      labels.map fun x => .text x.1 := List.map_map
  have hvalues : (labels.map fun x => (Datum.text x.1, Datum.text x.2)).map Prod.snd =
      labels.map fun x => .text x.2 := List.map_map
  cases labels with
  | nil => exact Labels.empty.ofPairs_names_values.symm
  | cons first rest =>
    rw [← hnames, ← hvalues]
    rfl

/-- **Which constant labels make a label set**: those with legal names, of which no two are exposed alike. -/
theorem exists_ofDatum_iff :
    (∃ l, Labels.ofDatum (labelsDatum labels) = .ok l) ↔
      (∀ x ∈ labels, LabelName.problem? x.1 = none) ∧ labels.Pairwise fun x y => exposed x.1 ≠ exposed y.1 := by
  have hdistinct : ((labels.map fun x => Datum.text x.1).map Naming.exposedDatum).Nodup ↔
      labels.Pairwise fun x y => exposed x.1 ≠ exposed y.1 := by
    simp only [List.Nodup, List.map_map, List.pairwise_map, Function.comp_apply, Naming.exposedDatum, ne_eq,
      Except.ok.injEq]
  rw [ofDatum_labelsDatum, Labels.exists_ofPairs_iff, hdistinct]
  simp only [List.length_map, List.forall_mem_map, true_and]
  constructor
  · rintro ⟨hlegal, -, hapart⟩
    exact ⟨hlegal, hapart⟩
  · rintro ⟨hlegal, hapart⟩
    exact ⟨hlegal, fun x _ => ⟨x.2, rfl⟩, hapart⟩

/-! ## Passes -/

/-- **When a collection can be relabelled**: if the labels of all points can be united with the constant ones. -/
theorem exists_relabel_iff (hlabels : Labels.ofDatum (labelsDatum cfg.constantLabels) = .ok l) :
    (∃ d, cfg.relabel c = .ok d) ↔ ∀ t ∈ c.snapshots, ∀ p ∈ t.points, p.labels.Compatible l := by
  rw [relabel_eq, ← apply_labelChange, cfg.lawful_labelChange.exists_changed_iff, apply_labelChange]
  simp only [relabelSnapshot_eq hlabels, Snapshot.exists_withLabels_iff]

/-- **Where the constant labels make no label set, nothing can be relabelled.** -/
theorem relabel_eq_error (hlabels : Labels.ofDatum (labelsDatum cfg.constantLabels) = .error e)
    (hc : c.snapshots ≠ []) : cfg.relabel c = .error e := by
  have hsome : ¬cfg.constantLabels.isEmpty = true := by
    intro hempty
    rw [List.isEmpty_iff.1 hempty] at hlabels
    cases hlabels
  have hfirst (t : Snapshot) : t.withLabels (.datum (labelsDatum cfg.constantLabels)) = .error e := by
    rw [Snapshot.withLabels, LabelArgument.resolve, hlabels]
    rfl
  rw [relabel, if_neg hsome, Collection.withLabels]
  cases hsnapshots : c.snapshots with
  | nil => exact absurd hsnapshots hc
  | cons t rest =>
    rw [Collection.changeAll, hfirst]
    rfl

/-- **Which constant labels that are accepted can be applied.** Labels are accepted exactly if all of their names are
legal. Those that are accepted make a label set exactly if no two of their names are exposed alike. If they do, a
collection can be relabelled unless its points have labels that cannot be united with it. If they do not, the labels are
invalid, and every collection with a snapshot fails to be relabelled. -/
theorem constantLabels_applicable_iff (labels : List (String × String)) :
    ((∃ s, ofEntries (documentOf labels) = .ok s) ↔ ∀ x ∈ labels, LabelName.problem? x.1 = none) ∧
      ∀ entries s, Datum.lookup entries "constant_labels" = some (labelsDatum labels) → ofEntries entries = .ok s →
        s.constantLabels = labels ∧
          ((∃ l, Labels.ofDatum (labelsDatum labels) = .ok l) ↔
            labels.Pairwise fun x y => exposed x.1 ≠ exposed y.1) ∧
          (∀ l, Labels.ofDatum (labelsDatum labels) = .ok l → ∀ c,
            (∃ d, s.relabel c = .ok d) ↔ ∀ t ∈ c.snapshots, ∀ p ∈ t.points, p.labels.Compatible l) ∧
          ∀ e, Labels.ofDatum (labelsDatum labels) = .error e →
            e.category = .invalid ∧ ∀ c, c.snapshots ≠ [] → s.relabel c = .error e := by
  refine ⟨exists_ofEntries_iff, fun entries s hlabels h => ?_⟩
  obtain ⟨rfl, hlegal⟩ := of_ofEntries_eq_ok hlabels h
  refine ⟨rfl, exists_ofDatum_iff.trans (and_iff_right hlegal), fun l hl c => exists_relabel_iff hl, fun e he => ?_⟩
  refine ⟨?_, fun c hc => relabel_eq_error he hc⟩
  rw [ofDatum_labelsDatum] at he
  exact Labels.category_of_ofPairs_eq_error he

/-! ### Two spellings of one name -/

def zoneAndEnv : List (String × String) :=
  [("time.zone", "utc"), ("env", "prod")]

/-- A zone twice, with a dot and with an underscore. -/
def zoneSpellings : List (String × String) :=
  [("time.zone", "utc"), ("time_zone", "cet")]

open Collection (firstHalf)

def halfAlone : Collection where
  snapshots := [firstHalf]
  increasing := List.pairwise_singleton _ _

/-- A zone and an environment are accepted and applied. The two spellings of the zone are accepted, and invalid where
they are to be applied. -/
theorem zoneAndEnv_applied :
    (∃ s l d, ofEntries (documentOf zoneAndEnv) = .ok s ∧ Labels.ofDatum (labelsDatum zoneAndEnv) = .ok l ∧
        s.relabel halfAlone = .ok d) ∧
      ∃ s e, ofEntries (documentOf zoneSpellings) = .ok s ∧ Labels.ofDatum (labelsDatum zoneSpellings) = .error e ∧
        e.category = .invalid ∧ s.relabel halfAlone = .error e := by
  constructor
  · obtain ⟨haccepted, happlied⟩ := constantLabels_applicable_iff zoneAndEnv
    obtain ⟨s, hs⟩ := haccepted.2 (by decide)
    obtain ⟨-, hset, hpass, -⟩ := happlied (documentOf zoneAndEnv) s rfl hs
    obtain ⟨l, hl⟩ := hset.2 (by decide)
    have hcompatible : ∀ t ∈ halfAlone.snapshots, ∀ p ∈ t.points, p.labels.Compatible l := by
      intro t ht p hp x hx
      rw [List.mem_singleton.1 ht] at hp
      rw [List.mem_singleton.1 hp] at hx
      cases hx
    obtain ⟨d, hd⟩ := (hpass l hl halfAlone).2 hcompatible
    exact ⟨s, l, d, hs, hl, hd⟩
  · obtain ⟨haccepted, happlied⟩ := constantLabels_applicable_iff zoneSpellings
    obtain ⟨s, hs⟩ := haccepted.2 (by decide)
    obtain ⟨-, hset, -, hfail⟩ := happlied (documentOf zoneSpellings) s rfl hs
    cases hl : Labels.ofDatum (labelsDatum zoneSpellings) with
    | ok l => exact absurd (hset.1 ⟨l, hl⟩) (by decide)
    | error e =>
      obtain ⟨hinvalid, hpass⟩ := hfail e hl
      exact ⟨s, e, hs, rfl, hinvalid, hpass halfAlone (List.cons_ne_nil _ _)⟩

/-- **Labels that are accepted and cannot be applied**: two spellings of one name. -/
theorem spellings_accepted_not_applicable :
    ∃ s, ofEntries (documentOf zoneSpellings) = .ok s ∧
      (¬∃ l, Labels.ofDatum (labelsDatum zoneSpellings) = .ok l) ∧
      ∀ c, c.snapshots ≠ [] → ∃ e, s.relabel c = .error e := by
  obtain ⟨s, hs⟩ := exists_ofEntries_iff.2 (by decide : ∀ x ∈ zoneSpellings, LabelName.problem? x.1 = none)
  have hnone : ¬∃ l, Labels.ofDatum (labelsDatum zoneSpellings) = .ok l := by
    rw [exists_ofDatum_iff]
    decide
  refine ⟨s, hs, hnone, fun c hc => ?_⟩
  obtain ⟨hsame, -⟩ := of_ofEntries_eq_ok rfl hs
  cases hl : Labels.ofDatum (labelsDatum zoneSpellings) with
  | ok l => exact absurd ⟨l, hl⟩ hnone
  | error e =>
    rw [← hsame] at hl
    exact ⟨e, relabel_eq_error hl hc⟩

end Telemetry.PipelineSettings
