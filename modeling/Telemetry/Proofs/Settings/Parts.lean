import Mathlib.Logic.Basic
import Telemetry.Proofs.Datum.Entries
import Telemetry.Settings

/-!
# Parts of settings

Settings are read from documents part by part, and each part from the section under its title. A section that is missing
is read like an empty one, since every default is what an empty section gives. So a document in which one entry of a
section is set is read as before, but for this entry.

## Main results

* `Checked.of_member_record`: a section that is missing is read like an empty one
* `PipelineSettings.ofEntries_eq_ok_iff`, `Settings.ofEntries_eq_ok_iff`, and the same for the other parts: which
  settings are in a document
* `PipelineSettings.ofEntries_insertEntry_iff`, and the same for the other parts: the settings in a document with one
  entry set
-/

namespace Telemetry

open Checked
open Datum (lookup insertEntry insertAt sectionOf)

attribute [ext] ExporterSettings Settings

variable {entries inner : List (Datum × Datum)} {d : Datum} {key other title lead : String}

/-! ## Members -/

namespace Checked

variable {α β : Type} {check : Datum → Checked α} {read : List (Datum × Datum) → Checked α} {default x y : α}

/-- Where what is made of a part can be taken apart again, it is accepted exactly if what it was made of is. -/
theorem map_eq_ok_iff_of_inverse {f : α → β} {g : β → α} (hleft : ∀ x, g (f x) = x) (hright : ∀ y, f (g y) = y)
    {c : Checked α} {z : β} : c.map f = .ok z ↔ c = .ok (g z) := by
  rw [map_eq_ok_iff]
  constructor
  · rintro ⟨x, h, rfl⟩
    rw [h, hleft]
  · intro h
    exact ⟨g z, h, hright z⟩

theorem text_eq_ok_iff {s : String} : text d = .ok s ↔ d = .text s := by
  cases d <;> simp [text, refuse]

/-- What is put under the key of a part is what is checked. -/
theorem member_insertEntry_self :
    member (insertEntry entries (.text key) d) key default check = .ok x ↔ check d = .ok x := by
  rw [member_eq_ok_iff, Datum.lookup_insertEntry_self]

/-- What is put under another key does not matter to a part. -/
theorem member_insertEntry_of_ne (h : other ≠ key) :
    member (insertEntry entries (.text key) d) other default check = member entries other default check := by
  rw [member, member, Datum.lookup_insertEntry_of_ne h]

/-- **A section that is missing is read like an empty one**, if the default is what an empty one gives. -/
theorem of_member_record (hdefault : read [] = .ok default)
    (h : member entries key default (record title read) = .ok x) :
    (lookup entries key).getD (.dict []) = .dict (sectionOf entries key) ∧ read (sectionOf entries key) = .ok x := by
  rw [member_eq_ok_iff] at h
  unfold sectionOf
  cases hlookup : lookup entries key with
  | none =>
    rw [hlookup] at h
    exact ⟨rfl, hdefault.trans (congrArg _ h)⟩
  | some part =>
    rw [hlookup] at h
    cases part with
    | dict inner => exact ⟨rfl, h⟩
    | _ => cases h

end Checked

/-! ## Logging -/

namespace LogSettings

variable {s : LogSettings}

theorem ofEntries_eq_ok_iff :
    ofEntries entries = .ok s ↔
      member entries "log_level" standard.level text = .ok s.level ∧
        member entries "log_format" standard.format LogFormat.ofDatum = .ok s.format :=
  (map_eq_ok_iff_of_inverse (g := fun s : LogSettings => (s.level, s.format)) (fun _ => rfl) fun _ => rfl).trans
    both_eq_ok_iff

end LogSettings

/-! ## Exporters -/

namespace ScrapeSettings

variable {s t : ScrapeSettings}

theorem ofEntries_nil : ofEntries [] = .ok standard := rfl

theorem ofEntries_eq_ok_iff :
    ofEntries entries = .ok s ↔
      member entries "enabled" standard.enabled truth = .ok s.enabled ∧
        member entries "prefix" standard.lead text = .ok s.lead :=
  (map_eq_ok_iff_of_inverse (g := fun s : ScrapeSettings => (s.enabled, s.lead)) (fun _ => rfl) fun _ => rfl).trans
    both_eq_ok_iff

/-- **A section with another text in front of names.** -/
theorem ofEntries_insertEntry_iff (h : ofEntries entries = .ok s) :
    ofEntries (insertEntry entries (.text "prefix") (.text lead)) = .ok t ↔ t = { s with lead := lead } := by
  have hne : "enabled" ≠ "prefix" := by decide
  rw [ofEntries_eq_ok_iff, member_insertEntry_self, member_insertEntry_of_ne hne, (ofEntries_eq_ok_iff.1 h).1,
    text_eq_ok_iff]
  cases t
  simp [eq_comm]

end ScrapeSettings

namespace MeterSettings

variable {s t : MeterSettings}

theorem ofEntries_nil : ofEntries [] = .ok standard := rfl

theorem ofEntries_eq_ok_iff :
    ofEntries entries = .ok s ↔
      member entries "enabled" standard.enabled truth = .ok s.enabled ∧
        member entries "prefix" standard.lead text = .ok s.lead ∧
          member entries "meter_name" standard.meterName text = .ok s.meterName ∧
            member entries "resource" standard.resource texts = .ok s.resource := by
  rw [ofEntries, map_eq_ok_iff_of_inverse (g := fun s : MeterSettings => (s.enabled, s.lead, s.meterName, s.resource))
    (fun _ => rfl) fun _ => rfl, both_eq_ok_iff, both_eq_ok_iff, both_eq_ok_iff]

/-- **A section with another text in front of names.** -/
theorem ofEntries_insertEntry_iff (h : ofEntries entries = .ok s) :
    ofEntries (insertEntry entries (.text "prefix") (.text lead)) = .ok t ↔ t = { s with lead := lead } := by
  have hne : "enabled" ≠ "prefix" ∧ "meter_name" ≠ "prefix" ∧ "resource" ≠ "prefix" := by decide
  obtain ⟨henabled, -, hname, hresource⟩ := ofEntries_eq_ok_iff.1 h
  rw [ofEntries_eq_ok_iff, member_insertEntry_self, member_insertEntry_of_ne hne.1, member_insertEntry_of_ne hne.2.1,
    member_insertEntry_of_ne hne.2.2, henabled, hname, hresource, text_eq_ok_iff]
  cases t
  simp [eq_comm]

end MeterSettings

namespace ExporterSettings

variable {s t : ExporterSettings}

theorem ofEntries_nil : ofEntries [] = .ok standard := rfl

theorem ofEntries_eq_ok_iff :
    ofEntries entries = .ok s ↔
      member entries "prometheus" standard.scrape (record "PrometheusExporterConfig" ScrapeSettings.ofEntries) =
          .ok s.scrape ∧
        member entries "otel" standard.meter (record "OTELExporterConfig" MeterSettings.ofEntries) = .ok s.meter :=
  (map_eq_ok_iff_of_inverse (g := fun s : ExporterSettings => (s.scrape, s.meter)) (fun _ => rfl) fun _ => rfl).trans
    both_eq_ok_iff

/-- **Exporters with another text in front of the names that scrapes see.** -/
theorem ofEntries_insertAt_scrape_iff (h : ofEntries entries = .ok s) :
    ofEntries (insertAt entries ["prometheus"] "prefix" (.text lead)) = .ok t ↔
      t = { s with scrape := { s.scrape with lead := lead } } := by
  have hne : "otel" ≠ "prometheus" := by decide
  obtain ⟨hscrape, hmeter⟩ := ofEntries_eq_ok_iff.1 h
  have hsection := (of_member_record ScrapeSettings.ofEntries_nil hscrape).2
  rw [insertAt, insertAt, ofEntries_eq_ok_iff, member_insertEntry_self, member_insertEntry_of_ne hne, hmeter,
    Except.ok.injEq, eq_comm (a := s.meter), ExporterSettings.ext_iff]
  exact and_congr_left' (ScrapeSettings.ofEntries_insertEntry_iff hsection)

/-- **Exporters with another text in front of the names of instruments.** -/
theorem ofEntries_insertAt_meter_iff (h : ofEntries entries = .ok s) :
    ofEntries (insertAt entries ["otel"] "prefix" (.text lead)) = .ok t ↔
      t = { s with meter := { s.meter with lead := lead } } := by
  have hne : "prometheus" ≠ "otel" := by decide
  obtain ⟨hscrape, hmeter⟩ := ofEntries_eq_ok_iff.1 h
  have hsection := (of_member_record MeterSettings.ofEntries_nil hmeter).2
  rw [insertAt, insertAt, ofEntries_eq_ok_iff, member_insertEntry_self, member_insertEntry_of_ne hne, hscrape,
    Except.ok.injEq, eq_comm (a := s.scrape), ExporterSettings.ext_iff]
  exact and_congr_right' (MeterSettings.ofEntries_insertEntry_iff hsection)

/-- Whether no exporter has an illegal text in front of names. -/
def LeadsLegal (s : ExporterSettings) : Prop :=
  mayLead s.scrape.lead = true ∧ mayLead s.meter.lead = true

end ExporterSettings

/-! ## The pipeline -/

namespace PipelineSettings

variable {s t : PipelineSettings}

theorem ofEntries_nil : ofEntries [] = .ok standard := rfl

/-- **Which settings are in a document.** -/
theorem ofEntries_eq_ok_iff :
    ofEntries entries = .ok s ↔
      member entries "name_prefix" standard.nameLead (fun d => ensure leadFault? (leadOfDatum d)) = .ok s.nameLead ∧
        member entries "constant_labels" standard.constantLabels (fun d => ensure labelsFault? (texts d)) =
          .ok s.constantLabels :=
  (map_eq_ok_iff_of_inverse (g := fun s : PipelineSettings => (s.nameLead, s.constantLabels)) (fun _ => rfl)
    fun _ => rfl).trans both_eq_ok_iff

/-- A text is accepted in front of names if it may stand there. -/
theorem ensure_leadOfDatum_eq_ok_iff {found : Option String} :
    ensure leadFault? (leadOfDatum (.text lead)) = .ok found ↔ mayLead lead = true ∧ found = some lead := by
  have hlead : leadOfDatum (.text lead) = .ok (some lead) := rfl
  rw [ensure_eq_ok_iff, hlead]
  constructor
  · rintro ⟨hfound, hfault⟩
    cases hfound
    exact ⟨by simpa [leadFault?] using hfault, rfl⟩
  · rintro ⟨hmay, rfl⟩
    exact ⟨rfl, if_pos hmay⟩

/-- Labels have no fault if all names are legal. -/
theorem labelsFault?_eq_none_iff {labels : List (String × String)} :
    labelsFault? labels = none ↔ ∀ x ∈ labels, LabelName.problem? x.1 = none := by
  simp [labelsFault?, List.findSome?_eq_none_iff]

/-- **A section with another text in front of names.** -/
theorem ofEntries_insertEntry_iff (h : ofEntries entries = .ok s) :
    ofEntries (insertEntry entries (.text "name_prefix") (.text lead)) = .ok t ↔
      mayLead lead = true ∧ t = { s with nameLead := some lead } := by
  have hne : "constant_labels" ≠ "name_prefix" := by decide
  rw [ofEntries_eq_ok_iff, member_insertEntry_self, member_insertEntry_of_ne hne, (ofEntries_eq_ok_iff.1 h).2,
    ensure_leadOfDatum_eq_ok_iff, and_assoc, Except.ok.injEq, eq_comm (a := s.constantLabels)]
  cases t
  simp

end PipelineSettings

/-! ## All settings -/

namespace Settings

variable {s t : Settings}

/-- Exporters have no fault if what they put in front of names may stand there. -/
theorem exporterFault?_eq_none_iff : exporterFault? s = none ↔ s.exporters.LeadsLegal := by
  unfold exporterFault? ExporterSettings.LeadsLegal
  cases mayLead s.exporters.scrape.lead <;> cases mayLead s.exporters.meter.lead <;> simp

/-- **Which settings are in a document**: those in its sections, if the texts that exporters put in front of names may
stand there. -/
theorem ofEntries_eq_ok_iff :
    ofEntries entries = .ok s ↔
      (logMember entries = .ok s.log ∧
        member entries "exporters" .standard (record "ExportersConfig" ExporterSettings.ofEntries) = .ok s.exporters ∧
          member entries "pipeline" .standard (record "PipelineConfig" PipelineSettings.ofEntries) = .ok s.pipeline) ∧
        s.exporters.LeadsLegal := by
  rw [ofEntries, ensure_eq_ok_iff, exporterFault?_eq_none_iff, map_eq_ok_iff_of_inverse
    (g := fun s : Settings => (s.log, s.exporters, s.pipeline)) (fun _ => rfl) fun _ => rfl, both_eq_ok_iff,
    both_eq_ok_iff]

/-- What is read about logging does not depend on sections under other titles. -/
theorem logMember_insertEntry_of_ne (hfirst : "global" ≠ title) (hsecond : "global_" ≠ title) :
    logMember (insertEntry entries (.text title) d) = logMember entries := by
  rw [logMember, logMember, Datum.lookup_insertEntry_of_ne hfirst, member_insertEntry_of_ne hsecond]

/-- **A document with another text in front of all names.** -/
theorem ofEntries_insertAt_pipeline_iff (h : ofEntries entries = .ok s) :
    ofEntries (insertAt entries ["pipeline"] "name_prefix" (.text lead)) = .ok t ↔
      mayLead lead = true ∧ t = { s with pipeline := { s.pipeline with nameLead := some lead } } := by
  have hne : "exporters" ≠ "pipeline" := by decide
  obtain ⟨⟨hlog, hexporters, hpipeline⟩, hlegal⟩ := ofEntries_eq_ok_iff.1 h
  have hsection := (of_member_record PipelineSettings.ofEntries_nil hpipeline).2
  have hread : record "PipelineConfig" PipelineSettings.ofEntries
      (.dict (insertEntry (sectionOf entries "pipeline") (.text "name_prefix") (.text lead))) = .ok t.pipeline ↔ _ :=
    PipelineSettings.ofEntries_insertEntry_iff hsection
  rw [insertAt, insertAt, ofEntries_eq_ok_iff, logMember_insertEntry_of_ne (by decide) (by decide),
    member_insertEntry_of_ne hne, member_insertEntry_self, hread, hlog, hexporters, Except.ok.injEq, Except.ok.injEq,
    eq_comm (a := s.log), eq_comm (a := s.exporters), Settings.ext_iff]
  constructor
  · rintro ⟨⟨hsameLog, hsameExporters, hlead, hput⟩, -⟩
    exact ⟨hlead, hsameLog, hsameExporters, hput⟩
  · rintro ⟨hlead, hsameLog, hsameExporters, hput⟩
    exact ⟨⟨hsameLog, hsameExporters, hlead, hput⟩, hsameExporters ▸ hlegal⟩

/-- **A document with another section about exporters.** -/
theorem ofEntries_insert_exporters_iff (h : ofEntries entries = .ok s) {exporters : ExporterSettings}
    (hinner : ∀ found, ExporterSettings.ofEntries inner = .ok found ↔ found = exporters) :
    ofEntries (insertEntry entries (.text "exporters") (.dict inner)) = .ok t ↔
      exporters.LeadsLegal ∧ t = { s with exporters := exporters } := by
  have hne : "pipeline" ≠ "exporters" := by decide
  obtain ⟨⟨hlog, -, hpipeline⟩, -⟩ := ofEntries_eq_ok_iff.1 h
  have hread : record "ExportersConfig" ExporterSettings.ofEntries (.dict inner) = .ok t.exporters ↔ _ :=
    hinner t.exporters
  rw [ofEntries_eq_ok_iff, logMember_insertEntry_of_ne (by decide) (by decide), member_insertEntry_self, hread,
    member_insertEntry_of_ne hne, hlog, hpipeline, Except.ok.injEq, Except.ok.injEq, eq_comm (a := s.log),
    eq_comm (a := s.pipeline), and_comm, Settings.ext_iff]
  exact and_congr_left fun ⟨_, hput, _⟩ => by rw [hput]

end Settings

end Telemetry
