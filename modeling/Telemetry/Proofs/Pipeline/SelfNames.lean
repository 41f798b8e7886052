import Telemetry.Proofs.Exporter.Serving
import Telemetry.Proofs.Family.Names
import Telemetry.Proofs.Pipeline.Accounts
import Telemetry.Proofs.Settings.Parts

/-!
# Names of self metrics

A pipeline serves its measurements beside the families of its scrape exporter, behind the same text. In front of the
names of exported metrics the text is exposed as all names are, with underscores in the place of dots. In front of the
measurements it stands as it is. So the two agree exactly if the text has no dot, and settings accept texts with dots.

The measurements are registered under their names, and not every name need be taken. Names of the grammar of exposed
names are; what becomes of others does not matter here.

## Main definitions

* `Naming.Carries`: names that have an exposed text in front, and no dot
* `SelfMetrics.familyNames`, `SelfMetrics.sampleNames`: the names of measurements and of their samples
* `Pipeline.construct?`: a pipeline that registers its measurements where only some names are taken

## Main results

* `ScrapeExporter.carries_of_accept`: the names of exported metrics carry the text in front of them
* `SelfMetrics.carries_iff`: when the names of measurements do
* `Pipeline.name_mem_selfNames`: the names of measurements are the same at all times
* `Pipeline.self_names_exposed_iff`: when a pipeline is constructed with names like those of exported metrics
* `Pipeline.self_names_dotted`: a text with dots
-/

namespace Telemetry

open Naming

/-! ## Names with a text in front -/

namespace Naming

variable {lead rest : String}

/-- **Whether a name carries a text** as scrapes see it: it has the exposed text in front, and no dot. -/
def Carries (lead name : String) : Prop :=
  (∃ rest, name = exposed lead ++ rest) ∧ '.' ∉ name.toList

theorem carries_exposed_append (hrest : '.' ∉ rest.toList) : Carries lead (exposed lead ++ rest) := by
  refine ⟨⟨rest, rfl⟩, ?_⟩
  rw [String.toList_append, List.mem_append]
  exact not_or_intro (dot_not_mem_exposed lead) hrest

/-- **A name with a text as it is in front** carries the text exactly if the text has no dot. -/
theorem carries_append_iff (hrest : '.' ∉ rest.toList) : Carries lead (lead ++ rest) ↔ '.' ∉ lead.toList := by
  constructor
  · rintro ⟨-, hdot⟩ hlead
    rw [String.toList_append] at hdot
    exact hdot (List.mem_append_left _ hlead)
  · intro hlead
    have hcarries : Carries lead (exposed lead ++ rest) := carries_exposed_append hrest
    rwa [exposed_eq_self_iff.2 hlead] at hcarries

end Naming

/-! ## Exported metrics -/

namespace ScrapeExporter

variable {e e' : ScrapeExporter} {lead : String} {c d : Collection} {t : Snapshot} {f : Family}

/-- Renamed metrics have the exposed text in front of their exposed names. -/
theorem exists_exposedName_of_renamed (h : renamed lead c = .ok d) (ht : t ∈ d.snapshots) :
    ∃ rest, t.exposedName = exposed lead ++ rest := by
  unfold renamed at h
  split at h
  · next hempty =>
    rw [String.isEmpty_iff.1 hempty]
    exact ⟨t.exposedName, String.empty_append.symm⟩
  · obtain ⟨s, -, hs⟩ := (Collection.mem_of_changed h).1 ht
    exact ⟨_, (Snapshot.withNamePrefix_eq_ok_iff.1 hs).exposedName⟩

/-- **The names of exported metrics carry the text** in front of them, if the metrics have no unit. -/
theorem carries_of_accept (h : e.accept c = .ok e') (ht : t ∈ e'.held.snapshots) (hunit : t.metadata.unit = none)
    (hf : Family.ofSnapshot t = .ok f) : ∀ sample ∈ f.samples, Carries e.lead sample.name := by
  intro sample hsample
  obtain ⟨d, hadmitted, rfl⟩ := accept_eq_ok_iff.1 h
  obtain ⟨rest, hrest⟩ := exists_exposedName_of_renamed (admitted?_eq_some_iff.1 hadmitted).1 ht
  obtain ⟨ending, hending, hname⟩ := Family.exists_ending_of_mem_samples hf hsample
  have hfamily : f.name = t.exposedName := by
    rw [Family.name_of_ofSnapshot hf, Metadata.familyName, hunit]
    rfl
  have hnodot : '.' ∉ rest.toList := by
    have hexposed := t.metadata.dot_not_mem_exposedName
    rw [show t.metadata.exposedName = exposed e.lead ++ rest from hrest, String.toList_append] at hexposed
    exact fun hdot => hexposed (List.mem_append_right _ hdot)
  rw [hname, hfamily, hrest, String.append_assoc]
  refine carries_exposed_append ?_
  rw [String.toList_append, List.mem_append]
  exact not_or_intro hnodot (dot_not_mem_of_mem_sampleEndings hending)

end ScrapeExporter

/-! ## Measurements -/

namespace SelfMetrics

variable {lead name : String}

/-- The measurements of a pipeline, with the endings of their samples. What counts is registered without an ending. -/
def measurements : List (String × List String) :=
  [("pipeline_snapshots", ["_total", "_created"]), ("pipeline_export_errors", ["_total", "_created"]),
    ("pipeline_collect_duration_seconds", ["_bucket", "_count", "_sum", "_created"])]

/-- **The names under which measurements are registered**, behind a text. -/
def familyNames (lead : String) : List String :=
  measurements.map fun (stem, _) => lead ++ stem

/-- **The names of the samples of measurements**, behind a text. -/
def sampleNames (lead : String) : List String :=
  measurements.flatMap fun (stem, endings) => endings.map fun ending => lead ++ (stem ++ ending)

/-- The names of measurements are in the grammar of exposed names, without a text in front. -/
theorem accepts_of_mem_measurements : ∀ m ∈ measurements,
    exposedGrammar.accepts m.1.toList = true ∧ m.1.toList.all exposedGrammar.isRest = true ∧
      ∀ ending ∈ m.2, '.' ∉ (m.1 ++ ending).toList := by
  decide +kernel

theorem mem_sampleNames_iff :
    name ∈ sampleNames lead ↔ ∃ m ∈ measurements, ∃ ending ∈ m.2, name = lead ++ (m.1 ++ ending) := by
  simp only [sampleNames, List.mem_flatMap, List.mem_map, eq_comm]

/-- **When the names of measurements carry the text** in front of them: if it has no dot. -/
theorem carries_iff (h : name ∈ sampleNames lead) : Carries lead name ↔ '.' ∉ lead.toList := by
  obtain ⟨m, hm, ending, hending, rfl⟩ := mem_sampleNames_iff.1 h
  exact carries_append_iff ((accepts_of_mem_measurements m hm).2.2 ending hending)

/-- **Behind a text without dots, measurements are registered under names of the grammar**, if the text may stand in
front of names. -/
theorem accepts_of_mem_familyNames (hlead : mayLead lead = true) (hdot : '.' ∉ lead.toList)
    (h : name ∈ familyNames lead) : exposedGrammar.accepts name.toList = true := by
  obtain ⟨m, hm, rfl⟩ := List.mem_map.1 h
  obtain ⟨haccepts, hrest, -⟩ := accepts_of_mem_measurements m hm
  show exposedGrammar.accepts (lead ++ m.1).toList = true
  rw [String.toList_append]
  rcases Bool.or_eq_true_iff.1 hlead with hempty | hlead
  · rw [String.isEmpty_iff.1 hempty]
    exact haccepts
  · have hexposed := accepts_map_undot hlead
    rw [← toList_exposed, exposed_eq_self_iff.2 hdot] at hexposed
    rw [Grammar.accepts_append hexposed, hrest]

/-- **Measurements have no other names.** -/
theorem name_mem_sampleNames {m : SelfMetrics} {sample : Sample} (h : sample ∈ m.samples) :
    sample.name ∈ sampleNames m.lead := by
  simp only [samples, List.mem_append, List.mem_cons, List.mem_map, List.not_mem_nil, or_false] at h
  rw [mem_sampleNames_iff]
  rcases h with ((rfl | ⟨entry, -, rfl⟩) | ⟨bound, -, rfl⟩) | (rfl | rfl)
  · exact ⟨measurements[0], List.getElem_mem _, "_total", List.mem_cons_self, rfl⟩
  · exact ⟨measurements[1], List.getElem_mem _, "_total", List.mem_cons_self, rfl⟩
  · exact ⟨measurements[2], List.getElem_mem _, "_bucket", by decide, String.append_assoc⟩
  · exact ⟨measurements[2], List.getElem_mem _, "_count", by decide, String.append_assoc⟩
  · exact ⟨measurements[2], List.getElem_mem _, "_sum", by decide, String.append_assoc⟩

end SelfMetrics

/-! ## Pipelines -/

namespace Pipeline

variable {γ ε : Type} [Sink ε]

/-- The names of the samples of the measurements of a pipeline. -/
def selfNames (p : Pipeline γ ε) : List String :=
  p.account.selfMetrics.toList.flatMap fun m => SelfMetrics.sampleNames m.lead

/-- **A pipeline that registers its measurements**, where only some names are taken. -/
def construct? (takes : String → Bool) (settings : PipelineSettings) (collectors : List γ) (exporters : List ε) :
    Option (Pipeline γ ε) :=
  let p := new settings collectors exporters
  if (p.account.selfMetrics.toList.flatMap fun m => SelfMetrics.familyNames m.lead).all takes then some p else none

variable {takes : String → Bool} {settings : PipelineSettings} {collectors : List γ} {exporters : List ε}
  {p : Pipeline γ ε} {e : ScrapeExporter}

/-- **Which pipeline is constructed**: a new one, if the names of its measurements are taken. -/
theorem construct?_eq_some_iff (he : exporters.findSome? Sink.scraped? = some e) :
    construct? takes settings collectors exporters = some p ↔
      (∀ name ∈ SelfMetrics.familyNames e.lead, takes name = true) ∧ new settings collectors exporters = p := by
  have hmetrics : (new settings collectors exporters).account.selfMetrics = some (.new e.lead) := by
    rw [new, he]
    rfl
  simp [construct?, hmetrics, SelfMetrics.new]

theorem selfNames_new (he : exporters.findSome? Sink.scraped? = some e) :
    (new settings collectors exporters).selfNames = SelfMetrics.sampleNames e.lead := by
  rw [selfNames, new, he]
  exact List.flatMap_singleton _ _

/-- **The names of measurements are the same at all times.** -/
theorem name_mem_selfNames [Source γ] (calls : List (Call γ)) {sample : Sample}
    (h : sample ∈ ((new settings collectors exporters).run calls).selfSamples) :
    sample.name ∈ (new settings collectors exporters).selfNames := by
  obtain ⟨after, hrun⟩ := (new settings collectors exporters).exists_run_eq calls
  have haccount : ((new settings collectors exporters).run calls).account = _ :=
    (congrArg account hrun).trans (account_record_new settings collectors exporters _)
  rw [selfSamples, haccount] at h
  cases he : exporters.findSome? Sink.scraped? with
  | none =>
    rw [he] at h
    cases h
  | some e =>
    rw [he] at h
    rw [selfNames_new he]
    exact SelfMetrics.name_mem_sampleNames h

/-- **When a pipeline is constructed with names like those of exported metrics.** Its scrape exporter has a text in
front of names that settings accept. Then a pipeline is constructed, and the names of all its measurements carry the
text, exactly if the text has no dot, whichever names beyond the grammar of exposed names are taken. If a pipeline is
constructed, its measurements have no other names at any time. The names of exported metrics carry the text in any case,
if the metrics have no unit. -/
theorem self_names_exposed_iff [Source γ]
    (htakes : ∀ name, exposedGrammar.accepts name.toList = true → takes name = true)
    {entries : List (Datum × Datum)} {s : Settings} (hs : Settings.ofEntries entries = .ok s)
    (he : exporters.findSome? Sink.scraped? = some e) (hlead : e.lead = s.exporters.scrape.lead) :
    ((∃ p, construct? takes settings collectors exporters = some p ∧ ∀ name ∈ p.selfNames, Carries e.lead name) ↔
      '.' ∉ e.lead.toList) ∧
    (∀ p, construct? takes settings collectors exporters = some p →
      (∀ name ∈ p.selfNames, Carries e.lead name ↔ '.' ∉ e.lead.toList) ∧
        ∀ calls, ∀ sample ∈ (p.run calls).selfSamples, sample.name ∈ p.selfNames) ∧
    ∀ c e', e.accept c = .ok e' → ∀ t ∈ e'.held.snapshots, t.metadata.unit = none →
      ∀ f, Family.ofSnapshot t = .ok f → ∀ sample ∈ f.samples, Carries e.lead sample.name := by
  have hmay : mayLead e.lead = true := by
    rw [hlead]
    exact (Settings.ofEntries_eq_ok_iff.1 hs).2.1
  refine ⟨⟨?_, fun hdot => ?_⟩, fun p hp => ?_, fun c e' h t ht hunit f hf => ?_⟩
  · rintro ⟨p, hp, hcarries⟩
    obtain ⟨-, rfl⟩ := (construct?_eq_some_iff he).1 hp
    rw [selfNames_new he] at hcarries
    have hfirst : SelfMetrics.sampleNames e.lead ≠ [] := List.cons_ne_nil _ _
    obtain ⟨name, hname⟩ := List.exists_mem_of_ne_nil _ hfirst
    exact (SelfMetrics.carries_iff hname).1 (hcarries name hname)
  · refine ⟨_, (construct?_eq_some_iff he).2 ⟨fun name hname => ?_, rfl⟩, fun name hname => ?_⟩
    · exact htakes name (SelfMetrics.accepts_of_mem_familyNames hmay hdot hname)
    · rw [selfNames_new he] at hname
      exact (SelfMetrics.carries_iff hname).2 hdot
  · obtain ⟨-, rfl⟩ := (construct?_eq_some_iff he).1 hp
    refine ⟨fun name hname => ?_, fun calls sample hsample => name_mem_selfNames calls hsample⟩
    rw [selfNames_new he] at hname
    exact SelfMetrics.carries_iff hname
  · exact ScrapeExporter.carries_of_accept h ht hunit hf

/-- A text without dots, where no names are taken but those of the grammar of exposed names. -/
theorem self_names_exposed_app :
    let takes : String → Bool := fun name => exposedGrammar.accepts name.toList
    ∃ p : Pipeline Collector Exporter,
      construct? takes .standard [] [.scrape (.new "app_")] = some p ∧
        ∀ name ∈ p.selfNames, Carries "app_" name := by
  intro takes
  have hs : Settings.ofEntries
      [(.text "exporters", .dict [(.text "prometheus", .dict [(.text "prefix", .text "app_")])])] =
      .ok ⟨.standard, ⟨⟨true, "app_"⟩, .standard⟩, .standard⟩ := rfl
  have he : [Exporter.scrape (.new "app_")].findSome? Sink.scraped? = some (.new "app_") := rfl
  exact (self_names_exposed_iff (fun _ h => h) hs he rfl).1.2 (by decide)

/-- **A text with dots.** Settings accept it, and no pipeline is constructed with names that carry it, whichever names
are taken. -/
theorem self_names_dotted :
    ∃ s, Settings.ofEntries
        [(.text "exporters", .dict [(.text "prometheus", .dict [(.text "prefix", .text "my.app.")])])] = .ok s ∧
      s.exporters.exporters = [.scrape (.new "my.app.")] ∧
      ∀ takes, ¬∃ p : Pipeline Collector Exporter,
        construct? takes s.pipeline [] s.exporters.exporters = some p ∧
          ∀ name ∈ p.selfNames, Carries "my.app." name := by
  refine ⟨⟨.standard, ⟨⟨true, "my.app."⟩, .standard⟩, .standard⟩, rfl, rfl, ?_⟩
  rintro takes ⟨p, hp, hcarries⟩
  have he : [Exporter.scrape (.new "my.app.")].findSome? Sink.scraped? = some (.new "my.app.") := rfl
  obtain ⟨-, rfl⟩ := (construct?_eq_some_iff he).1 hp
  have hname : "my.app.pipeline_snapshots_total" ∈ SelfMetrics.sampleNames "my.app." := List.mem_cons_self
  rw [selfNames_new he] at hcarries
  exact absurd ((SelfMetrics.carries_iff hname).1 (hcarries _ hname)) (by decide)

end Pipeline

end Telemetry
