import Telemetry.Proofs.Naming.Lead
import Telemetry.Proofs.Settings.Parts

/-!
# Texts in front of metric names, in settings

Settings have three places for a text in front of metric names: one for the pipeline, and one for each exporter. The
text is checked in each of them, by the characters of metric names alone. That is enough to accept exactly the
beginnings of metric names. What is accepted may end with a reserved suffix, so that it is no metric name itself; a name
behind it can still be legal.

## Main definitions

* `LeadPlace`: the places, with `LeadPlace.document` and `LeadPlace.put`: documents and settings with a text there

## Main results

* `LeadPlace.ofEntries_document_iff`: the settings in a document with a text in a place
* `Settings.leads_accepted_iff`: the texts that are accepted are the beginnings of metric names
-/

namespace Telemetry

open Datum (insertEntry insertAt)

/-- **A place for a text in front of metric names.** -/
inductive LeadPlace where
  | pipeline
  | scrape
  | meter

namespace LeadPlace

variable {place : LeadPlace} {entries : List (Datum × Datum)} {s t : Settings} {lead : String}

/-- The titles of the section that has a place, from the outermost one. -/
def titles : LeadPlace → List String
  | .pipeline => ["pipeline"]
  | .scrape => ["exporters", "prometheus"]
  | .meter => ["exporters", "otel"]

/-- The key of a place in its section. -/
def key : LeadPlace → String
  | .pipeline => "name_prefix"
  | .scrape | .meter => "prefix"

/-- **A document with a text in a place.** -/
def document (place : LeadPlace) (lead : String) (entries : List (Datum × Datum)) : List (Datum × Datum) :=
  insertAt entries place.titles place.key (.text lead)

/-- **Settings with a text in a place.** -/
def put (lead : String) (s : Settings) : LeadPlace → Settings
  | .pipeline => { s with pipeline := { s.pipeline with nameLead := some lead } }
  | .scrape => { s with exporters := { s.exporters with scrape := { s.exporters.scrape with lead := lead } } }
  | .meter => { s with exporters := { s.exporters with meter := { s.exporters.meter with lead := lead } } }

/-- **The settings in a document with a text in a place**: those in the document before, with the text there. -/
theorem ofEntries_document_iff (h : Settings.ofEntries entries = .ok s) :
    Settings.ofEntries (place.document lead entries) = .ok t ↔ mayLead lead = true ∧ t = place.put lead s := by
  obtain ⟨⟨-, hexporters, -⟩, hscrape, hmeter⟩ := Settings.ofEntries_eq_ok_iff.1 h
  have hsection := (Checked.of_member_record ExporterSettings.ofEntries_nil hexporters).2
  cases place with
  | pipeline => exact Settings.ofEntries_insertAt_pipeline_iff h
  | scrape =>
    refine (Settings.ofEntries_insert_exporters_iff h fun found =>
      ExporterSettings.ofEntries_insertAt_scrape_iff hsection).trans (and_congr_left' ?_)
    exact and_iff_left hmeter
  | meter =>
    refine (Settings.ofEntries_insert_exporters_iff h fun found =>
      ExporterSettings.ofEntries_insertAt_meter_iff hsection).trans (and_congr_left' ?_)
    exact and_iff_right hscrape

end LeadPlace

namespace Settings

/-- **The texts that are accepted in front of metric names are the beginnings of metric names.** So it is in the
settings of a pipeline by themselves, and in each place of all settings, whatever else they are; and the settings are as
they were without the text, but for the place of it. -/
theorem leads_accepted_iff (lead : String) :
    (∀ entries s, PipelineSettings.ofEntries entries = .ok s →
      ((∃ t, PipelineSettings.ofEntries (insertEntry entries (.text "name_prefix") (.text lead)) = .ok t) ↔
        lead = "" ∨ ∃ more, MetricName.problem? (lead ++ more) = none) ∧
      ∀ t, PipelineSettings.ofEntries (insertEntry entries (.text "name_prefix") (.text lead)) = .ok t →
        t = { s with nameLead := some lead }) ∧
    ∀ (place : LeadPlace) entries s, Settings.ofEntries entries = .ok s →
      ((∃ t, Settings.ofEntries (place.document lead entries) = .ok t) ↔
        lead = "" ∨ ∃ more, MetricName.problem? (lead ++ more) = none) ∧
      ∀ t, Settings.ofEntries (place.document lead entries) = .ok t → t = place.put lead s := by
  rw [← MetricName.mayLead_iff_exists]
  constructor
  · intro entries s h
    simp only [PipelineSettings.ofEntries_insertEntry_iff h, exists_and_left, exists_eq, and_true, true_and]
    exact fun t ht => ht.2
  · intro place entries s h
    simp only [LeadPlace.ofEntries_document_iff h, exists_and_left, exists_eq, and_true, true_and]
    exact fun t ht => ht.2

/-- A text that ends with a reserved suffix is accepted in front of the names of all exporters, and one that starts with
a digit is not. -/
theorem leads_accepted_total :
    (∃ s, Settings.ofEntries (LeadPlace.scrape.document "app_total" []) = .ok s ∧
        s.exporters.scrape.lead = "app_total") ∧
      ¬∃ s, Settings.ofEntries (LeadPlace.scrape.document "1-app" []) = .ok s := by
  have hempty : Settings.ofEntries [] = .ok ⟨.standard, .standard, .standard⟩ := rfl
  constructor
  · obtain ⟨-, hplaces⟩ := leads_accepted_iff "app_total"
    obtain ⟨haccepted, hput⟩ := hplaces .scrape [] _ hempty
    obtain ⟨s, hs⟩ := haccepted.2 (.inr ⟨"_requests", by decide⟩)
    exact ⟨s, hs, by rw [hput s hs]; rfl⟩
  · obtain ⟨-, hplaces⟩ := leads_accepted_iff "1-app"
    rw [(hplaces .scrape [] _ hempty).1, ← MetricName.mayLead_iff_exists]
    decide

end Settings

end Telemetry
