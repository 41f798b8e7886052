import Telemetry.Proofs.Settings.Documents

/-!
# Settings in documents

Settings are in a document if each of them is in its section, and the section is the part under its title. So a change of
the document that leaves the keys of a section leaves the settings in it. Settings that are dictionaries of texts are
another matter, since a change of such a dictionary is one of the setting, whatever its keys are.

## Main definitions

* `LogSettings.ofPart`, and the same for the other sections: settings from a part of a document
* `Document.nodeAt`: the part on a path of titles
* `Document.Holds`: documents in which settings are

## Main results

* `LogSettings.ofPart_read_iff`, and the same for the other sections: which settings are in a part
* `Settings.ofDocument_value_iff`: which settings are in a document
* `ExporterSettings.ofPart_of_frame`, `LogSettings.ofPart_of_frame`: what a change leaves
* `Settings.ofDocument_read_eq_value`: nothing below the last level matters
-/

namespace Telemetry

open Checked
open Datum (lookup insertEntry)

/-! ## Sections -/

/-- How a program logs, from a part of a document. -/
def LogSettings.ofPart : Datum → Checked LogSettings :=
  record "GlobalConfig" LogSettings.ofEntries

/-- The settings of the scrape exporter, from a part of a document. -/
def ScrapeSettings.ofPart : Datum → Checked ScrapeSettings :=
  record "PrometheusExporterConfig" ScrapeSettings.ofEntries

/-- The settings of the meter exporter, from a part of a document. -/
def MeterSettings.ofPart : Datum → Checked MeterSettings :=
  record "OTELExporterConfig" MeterSettings.ofEntries

/-- The settings of all exporters, from a part of a document. -/
def ExporterSettings.ofPart : Datum → Checked ExporterSettings :=
  record "ExportersConfig" ExporterSettings.ofEntries

/-- The settings of a pipeline, from a part of a document. -/
def PipelineSettings.ofPart : Datum → Checked PipelineSettings :=
  record "PipelineConfig" PipelineSettings.ofEntries

variable {D D' : Document} {node : Node} {entries : List (Datum × Node)} {keys : List String} {m n : Nat}

namespace Checked

variable {α : Type} {title : String} {read : List (Datum × Datum) → Checked α} {x : α}

/-- What is read from a part that should be a dictionary. -/
theorem record_read (title : String) (read : List (Datum × Datum) → Checked α) (D : Document) (n : Nat)
    (node : Node) :
    record title read (D.read (n + 1) node) =
      match D.entries? node with
      | some entries => read (D.data n entries)
      | none => refuse (.notRecord title) := by
  cases hentries : D.entries? node with
  | some entries => rw [D.read_of_entries? hentries, record]
  | none =>
    have hno : ¬(D.read (n + 1) node).IsDictionary := by
      rw [Document.isDictionary_read_iff, hentries]
      exact Bool.false_ne_true
    unfold record
    split
    · next shown hshown => exact absurd ⟨shown, hshown⟩ hno
    · rfl

/-- **When a part is accepted**: if it is a dictionary, and its entries are. -/
theorem record_read_eq_ok_iff {P : Prop}
    (h : ∀ entries, D.entries? node = some entries → (read (D.data n entries) = .ok x ↔ P)) :
    record title read (D.read (n + 1) node) = .ok x ↔ (D.entries? node).isSome ∧ P := by
  rw [record_read]
  cases hentries : D.entries? node with
  | some entries => simpa using h entries hentries
  | none => simp [refuse]

/-- Parts are read alike if their entries are. -/
theorem record_read_of_frame (hframe : D.Frame keys D')
    (h : ∀ entries entries', D.entries? node = some entries → D'.entries? node = some entries' →
      read (D'.data m entries') = read (D.data n entries)) :
    record title read (D'.read (m + 1) node) = record title read (D.read (n + 1) node) := by
  have hsome := hframe.isSome_eq node
  rw [record_read, record_read]
  cases hentries : D.entries? node <;> cases hentries' : D'.entries? node <;> simp_all

end Checked

namespace LogSettings

variable {s : LogSettings}

theorem ofPart_read_iff :
    ofPart (D.read (n + 1) node) = .ok s ↔ (D.entries? node).isSome ∧
      D.memberAt n node "log_level" standard.level text = .ok s.level ∧
        D.memberAt n node "log_format" standard.format LogFormat.ofDatum = .ok s.format :=
  record_read_eq_ok_iff fun _ h => by rw [ofEntries_eq_ok_iff, D.member_data h, D.member_data h]

theorem ofPart_read_of_frame (hframe : D.Frame keys D') (hkeys : ∀ key ∈ ["log_level", "log_format"], key ∉ keys)
    (m n : Nat) : ofPart (D'.read (m + 1) node) = ofPart (D.read (n + 1) node) := by
  simp only [List.forall_mem_cons] at hkeys
  refine record_read_of_frame hframe fun entries entries' h h' => ?_
  rw [ofEntries, ofEntries, D.member_data h, D.member_data h, D'.member_data h', D'.member_data h',
    D.memberAt_of_frame hframe isShallow_text (hframe.find?_eq node _ hkeys.1),
    D.memberAt_of_frame hframe isShallow_logFormat (hframe.find?_eq node _ hkeys.2.1)]

end LogSettings

namespace ScrapeSettings

theorem ofPart_read_of_frame (hframe : D.Frame keys D') (hkeys : ∀ key ∈ ["enabled", "prefix"], key ∉ keys)
    (m n : Nat) : ofPart (D'.read (m + 1) node) = ofPart (D.read (n + 1) node) := by
  simp only [List.forall_mem_cons] at hkeys
  refine record_read_of_frame hframe fun entries entries' h h' => ?_
  rw [ofEntries, ofEntries, D.member_data h, D.member_data h, D'.member_data h', D'.member_data h',
    D.memberAt_of_frame hframe isShallow_truth (hframe.find?_eq node _ hkeys.1),
    D.memberAt_of_frame hframe isShallow_text (hframe.find?_eq node _ hkeys.2.1)]

end ScrapeSettings

namespace MeterSettings

variable {s : MeterSettings} {resource : List (String × String)}

theorem ofPart_read_iff :
    ofPart (D.read (n + 1) node) = .ok s ↔ (D.entries? node).isSome ∧
      D.memberAt n node "enabled" standard.enabled truth = .ok s.enabled ∧
        D.memberAt n node "prefix" standard.lead text = .ok s.lead ∧
          D.memberAt n node "meter_name" standard.meterName text = .ok s.meterName ∧
            texts (D.read n (D.part node "resource")) = .ok s.resource := by
  have hempty : texts (.dict []) = .ok standard.resource := rfl
  refine record_read_eq_ok_iff fun _ h => ?_
  rw [ofEntries_eq_ok_iff, D.member_data h, D.member_data h, D.member_data h, D.member_data h,
    D.memberAt_eq_ok_iff hempty]

/-- **The settings of the meter exporter after a change**, which may be one of its resource. -/
theorem ofPart_of_frame (hframe : D.Frame keys D')
    (hkeys : ∀ key ∈ ["enabled", "prefix", "meter_name", "resource"], key ∉ keys)
    (h : ofPart (D.read (n + 1) node) = .ok s)
    (hresource : texts (D'.read n (D.part node "resource")) = .ok resource) :
    ofPart (D'.read (n + 1) node) = .ok { s with resource := resource } := by
  simp only [List.forall_mem_cons] at hkeys
  obtain ⟨hsome, henabled, hlead, hname, -⟩ := ofPart_read_iff.1 h
  rw [ofPart_read_iff, hframe.isSome_eq, D.memberAt_of_frame hframe isShallow_truth (hframe.find?_eq node _ hkeys.1),
    D.memberAt_of_frame hframe isShallow_text (hframe.find?_eq node _ hkeys.2.1),
    D.memberAt_of_frame hframe isShallow_text (hframe.find?_eq node _ hkeys.2.2.1),
    hframe.part_eq node hkeys.2.2.2.1]
  exact ⟨hsome, henabled, hlead, hname, hresource⟩

end MeterSettings

namespace ExporterSettings

variable {s : ExporterSettings} {resource : List (String × String)}

theorem ofPart_read_iff :
    ofPart (D.read (n + 1) node) = .ok s ↔ (D.entries? node).isSome ∧
      ScrapeSettings.ofPart (D.read n (D.part node "prometheus")) = .ok s.scrape ∧
        MeterSettings.ofPart (D.read n (D.part node "otel")) = .ok s.meter := by
  have hscrape : ScrapeSettings.ofPart (.dict []) = .ok standard.scrape := rfl
  have hmeter : MeterSettings.ofPart (.dict []) = .ok standard.meter := rfl
  refine record_read_eq_ok_iff fun _ h => ?_
  rw [ofEntries_eq_ok_iff, D.member_data h, D.member_data h, ← D.memberAt_eq_ok_iff hscrape,
    ← D.memberAt_eq_ok_iff hmeter]
  rfl

/-- **The settings of all exporters after a change**, which may be one of the resource. -/
theorem ofPart_of_frame (hframe : D.Frame keys D')
    (hkeys : ∀ key ∈ ["prometheus", "otel", "enabled", "prefix", "meter_name", "resource"], key ∉ keys)
    (h : ofPart (D.read (n + 2) node) = .ok s)
    (hresource : texts (D'.read n (D.part (D.part node "otel") "resource")) = .ok resource) :
    ofPart (D'.read (n + 2) node) = .ok { s with meter := { s.meter with resource := resource } } := by
  simp only [List.forall_mem_cons] at hkeys
  obtain ⟨hscrapeKey, hmeterKey, henabled, hlead, hname, hresourceKey, -⟩ := hkeys
  obtain ⟨hsome, hscrape, hmeter⟩ := ofPart_read_iff.1 h
  rw [ofPart_read_iff, hframe.isSome_eq, hframe.part_eq node hscrapeKey, hframe.part_eq node hmeterKey,
    ScrapeSettings.ofPart_read_of_frame hframe (by simp [henabled, hlead]) n n]
  exact ⟨hsome, hscrape, MeterSettings.ofPart_of_frame hframe (by simp [henabled, hlead, hname, hresourceKey]) hmeter
    hresource⟩

end ExporterSettings

namespace PipelineSettings

variable {s : PipelineSettings} {labels : List (String × String)}

theorem ofPart_read_iff :
    ofPart (D.read (n + 1) node) = .ok s ↔ (D.entries? node).isSome ∧
      D.memberAt n node "name_prefix" standard.nameLead (fun d => ensure leadFault? (leadOfDatum d)) =
          .ok s.nameLead ∧
        ensure labelsFault? (texts (D.read n (D.part node "constant_labels"))) = .ok s.constantLabels := by
  have hlabels : D.memberAt n node "constant_labels" standard.constantLabels (fun d => ensure labelsFault? (texts d)) =
      .ok s.constantLabels ↔ _ := D.memberAt_eq_ok_iff rfl
  refine record_read_eq_ok_iff fun _ h => ?_
  rw [ofEntries_eq_ok_iff, D.member_data h, D.member_data h, hlabels]

/-- **The settings of a pipeline after a change**, which may be one of the constant labels. -/
theorem ofPart_of_frame (hframe : D.Frame keys D') (hkeys : ∀ key ∈ ["name_prefix", "constant_labels"], key ∉ keys)
    (h : ofPart (D.read (n + 1) node) = .ok s)
    (hlabels : ensure labelsFault? (texts (D'.read n (D.part node "constant_labels"))) = .ok labels) :
    ofPart (D'.read (n + 1) node) = .ok { s with constantLabels := labels } := by
  simp only [List.forall_mem_cons] at hkeys
  obtain ⟨hsome, hlead, -⟩ := ofPart_read_iff.1 h
  rw [ofPart_read_iff, hframe.isSome_eq, D.memberAt_of_frame hframe isShallow_lead (hframe.find?_eq node _ hkeys.1),
    hframe.part_eq node hkeys.2.1]
  exact ⟨hsome, hlead, hlabels⟩

end PipelineSettings

/-! ## Documents -/

/-- Whether all keys of a dictionary are texts. -/
def Document.HasTextKeys {α : Type} (entries : List (Datum × α)) : Prop :=
  ∀ entry ∈ entries, entry.1.isText = true

namespace Document

/-- The part on a path of titles. What is missing on the way is empty. -/
def nodeAt (D : Document) (path : List String) : Node :=
  path.foldl D.part D.top

/-- The part about logging, which can stand under two titles. -/
def logNode (D : Document) : Node :=
  (D.find? D.top "global").getD (D.nodeAt ["global_"])

/-- **Documents in which settings are**: each of them in its section. -/
structure Holds (D : Document) (s : Settings) : Prop where
  textKeys : ∃ entries, D.entries? D.top = some entries ∧ HasTextKeys entries
  log : LogSettings.ofPart (D.read 3 D.logNode) = .ok s.log
  exporters : ExporterSettings.ofPart (D.read 3 (D.nodeAt ["exporters"])) = .ok s.exporters
  pipeline : PipelineSettings.ofPart (D.read 3 (D.nodeAt ["pipeline"])) = .ok s.pipeline
  legal : s.exporters.LeadsLegal

theorem hasTextKeys_data : HasTextKeys (D.data n entries) ↔ HasTextKeys entries :=
  List.forall_mem_map

theorem logMember_data {log : LogSettings} (h : D.entries? D.top = some entries) :
    Settings.logMember (D.data n entries) = .ok log ↔ LogSettings.ofPart (D.read n D.logNode) = .ok log := by
  have hfind : lookup (D.data n entries) "global" = (D.find? D.top "global").map (D.read n) := by
    rw [data, Datum.lookup_map, find?, h, Option.bind_some]
  have hempty : LogSettings.ofPart (.dict []) = .ok .standard := rfl
  rw [Settings.logMember, hfind, logNode]
  cases D.find? D.top "global" with
  | some part => exact under_eq_ok_iff
  | none => exact (iff_of_eq (congrArg (· = _) (D.member_data h))).trans (D.memberAt_eq_ok_iff hempty)

end Document

namespace Settings

variable {s : Settings}

/-- Which settings are in what a document is. -/
theorem ofDocument_eq_ok_iff {d : Datum} :
    ofDocument d = .ok s ↔
      ∃ entries, d = .dict entries ∧ Document.HasTextKeys entries ∧ ofEntries entries = .ok s := by
  cases d with
  | dict entries =>
    have hkeys : (entries.all fun entry => entry.1.isText) = true ↔ Document.HasTextKeys entries := List.all_eq_true
    have hread : (ofEntries entries).mapError LoadError.invalid = .ok s ↔ ofEntries entries = .ok s := by
      cases ofEntries entries with
      | ok read =>
        exact ⟨fun h => congrArg Except.ok (Except.ok.inj h), fun h => congrArg Except.ok (Except.ok.inj h)⟩
      | error e => exact iff_of_false nofun nofun
    rw [ofDocument]
    split
    · next htexts => simp [hread, hkeys.1 htexts]
    · next htexts => simp [mt hkeys.2 htexts]
  | _ => simp [ofDocument]

/-- **Which settings are in a document.** -/
theorem ofDocument_value_iff : ofDocument D.value = .ok s ↔ D.Holds s := by
  have hexporters : ExporterSettings.ofPart (.dict []) = .ok .standard := rfl
  have hpipeline : PipelineSettings.ofPart (.dict []) = .ok .standard := rfl
  rw [ofDocument_eq_ok_iff]
  constructor
  · rintro ⟨shown, hshown, htexts, hread⟩
    obtain ⟨entries, hentries⟩ := Option.isSome_iff_exists.1 ((D.isDictionary_read_iff _ _).1 ⟨shown, hshown⟩)
    rw [Document.value, Document.depth, D.read_of_entries? hentries, Datum.dict.injEq] at hshown
    subst hshown
    obtain ⟨⟨hlog, hexp, hpip⟩, hlegal⟩ := ofEntries_eq_ok_iff.1 hread
    rw [D.member_data hentries] at hexp hpip
    exact ⟨⟨entries, hentries, Document.hasTextKeys_data.1 htexts⟩, (Document.logMember_data hentries).1 hlog,
      (D.memberAt_eq_ok_iff hexporters).1 hexp, (D.memberAt_eq_ok_iff hpipeline).1 hpip, hlegal⟩
  · rintro ⟨⟨entries, hentries, htexts⟩, hlog, hexp, hpip, hlegal⟩
    refine ⟨D.data 3 entries, D.read_of_entries? hentries 3, Document.hasTextKeys_data.2 htexts,
      ofEntries_eq_ok_iff.2 ⟨⟨(Document.logMember_data hentries).2 hlog, ?_, ?_⟩, hlegal⟩⟩
    · rw [D.member_data hentries]
      exact (D.memberAt_eq_ok_iff hexporters).2 hexp
    · rw [D.member_data hentries]
      exact (D.memberAt_eq_ok_iff hpipeline).2 hpip

/-! ## Depth -/

theorem meter_read_congr (D : Document) (m n : Nat) (node : Node) :
    MeterSettings.ofPart (D.read (m + 2) node) = MeterSettings.ofPart (D.read (n + 2) node) := by
  have hframe := Document.Frame.refl D []
  refine record_read_of_frame hframe fun entries entries' h h' => ?_
  obtain rfl : entries = entries' := Option.some.inj (h.symm.trans h')
  have htruth (key : String) (default : Bool) :
      D.memberAt (m + 1) node key default truth = D.memberAt (n + 1) node key default truth :=
    D.memberAt_of_frame hframe isShallow_truth rfl
  have htext (key default : String) :
      D.memberAt (m + 1) node key default text = D.memberAt (n + 1) node key default text :=
    D.memberAt_of_frame hframe isShallow_text rfl
  have htexts (key : String) (default : List (String × String)) :
      D.memberAt (m + 1) node key default texts = D.memberAt (n + 1) node key default texts :=
    D.memberAt_congr rfl fun part _ => D.texts_read_of_frame hframe rfl m n
  simp only [MeterSettings.ofEntries, D.member_data h, htruth, htext, htexts]

theorem exporters_read_congr (D : Document) (m n : Nat) (node : Node) :
    ExporterSettings.ofPart (D.read (m + 3) node) = ExporterSettings.ofPart (D.read (n + 3) node) := by
  have hframe := Document.Frame.refl D []
  refine record_read_of_frame hframe fun entries entries' h h' => ?_
  obtain rfl : entries = entries' := Option.some.inj (h.symm.trans h')
  have hscrape (default : ScrapeSettings) :
      D.memberAt (m + 2) node "prometheus" default (record "PrometheusExporterConfig" ScrapeSettings.ofEntries) =
        D.memberAt (n + 2) node "prometheus" default (record "PrometheusExporterConfig" ScrapeSettings.ofEntries) :=
    D.memberAt_congr rfl fun part _ => ScrapeSettings.ofPart_read_of_frame hframe (by simp) (m + 1) (n + 1)
  have hmeter (default : MeterSettings) :
      D.memberAt (m + 2) node "otel" default (record "OTELExporterConfig" MeterSettings.ofEntries) =
        D.memberAt (n + 2) node "otel" default (record "OTELExporterConfig" MeterSettings.ofEntries) :=
    D.memberAt_congr rfl fun part _ => meter_read_congr D m n part
  simp only [ExporterSettings.ofEntries, D.member_data h, hscrape, hmeter]

/-- Nothing below the constant labels is looked at. -/
theorem pipeline_read_congr (D : Document) (m n : Nat) (node : Node) :
    PipelineSettings.ofPart (D.read (m + 2) node) = PipelineSettings.ofPart (D.read (n + 2) node) := by
  have hframe := Document.Frame.refl D []
  refine record_read_of_frame hframe fun entries entries' h h' => ?_
  obtain rfl : entries = entries' := Option.some.inj (h.symm.trans h')
  have hlead (default : Option String) :
      D.memberAt (m + 1) node "name_prefix" default
          (fun d => ensure PipelineSettings.leadFault? (PipelineSettings.leadOfDatum d)) =
        D.memberAt (n + 1) node "name_prefix" default
          (fun d => ensure PipelineSettings.leadFault? (PipelineSettings.leadOfDatum d)) :=
    D.memberAt_of_frame hframe isShallow_lead rfl
  have hlabels (default : List (String × String)) :
      D.memberAt (m + 1) node "constant_labels" default
          (fun d => ensure PipelineSettings.labelsFault? (texts d)) =
        D.memberAt (n + 1) node "constant_labels" default
          (fun d => ensure PipelineSettings.labelsFault? (texts d)) :=
    D.memberAt_congr rfl fun part _ => congrArg _ (D.texts_read_of_frame hframe rfl m n)
  simp only [PipelineSettings.ofEntries, D.member_data h, hlead, hlabels]

theorem logMember_congr {entries : List (Datum × Node)} (h : D.entries? D.top = some entries) (m n : Nat) :
    logMember (D.data (m + 1) entries) = logMember (D.data (n + 1) entries) := by
  have hlog (part : Node) : LogSettings.ofPart (D.read (m + 1) part) = LogSettings.ofPart (D.read (n + 1) part) :=
    LogSettings.ofPart_read_of_frame (.refl D []) (by simp) m n
  simp only [logMember, D.member_data h]
  rw [Document.data, Document.data, Datum.lookup_map, Datum.lookup_map]
  cases lookup entries "global" with
  | some part => exact congrArg (under "global") (hlog part)
  | none => exact D.memberAt_congr rfl fun part _ => hlog part

/-- **Nothing below the last level matters**: a document that is read further down has the same settings, or the same is
wrong with it. -/
theorem ofDocument_read_eq_value (D : Document) (n : Nat) :
    ofDocument (D.read (Document.depth + n) D.top) = ofDocument D.value := by
  rw [Document.value, Document.depth, Nat.add_comm 4 n]
  cases hentries : D.entries? D.top with
  | some entries =>
    have hexporters : D.memberAt (n + 3) D.top "exporters" .standard (record "ExportersConfig" ExporterSettings.ofEntries) =
        D.memberAt 3 D.top "exporters" .standard (record "ExportersConfig" ExporterSettings.ofEntries) :=
      D.memberAt_congr rfl fun part _ => exporters_read_congr D n 0 part
    have hpipeline : D.memberAt (n + 3) D.top "pipeline" .standard (record "PipelineConfig" PipelineSettings.ofEntries) =
        D.memberAt 3 D.top "pipeline" .standard (record "PipelineConfig" PipelineSettings.ofEntries) :=
      D.memberAt_congr rfl fun part _ => pipeline_read_congr D (n + 1) 1 part
    have hread : ofEntries (D.data (n + 3) entries) = ofEntries (D.data 3 entries) := by
      simp only [ofEntries, D.member_data hentries, logMember_congr hentries (n + 2) 2, hexporters, hpipeline]
    have hkeys (depth : Nat) : ((D.data depth entries).all fun entry => entry.1.isText) =
        entries.all fun entry => entry.1.isText := List.all_map
    rw [D.read_of_entries? hentries, D.read_of_entries? hentries, ofDocument, ofDocument, hkeys, hkeys, hread]
  | none =>
    unfold Document.entries? at hentries
    cases hcontent : D.content D.top with
    | plain d => rw [D.read_of_plain hcontent, D.read_of_plain hcontent]
    | list items => rw [Document.read, Document.read, hcontent]; rfl
    | dict found =>
      rw [hcontent] at hentries
      cases hentries

end Settings

end Telemetry
