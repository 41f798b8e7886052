import Telemetry.Dictionary
import Telemetry.Naming.Label
import Telemetry.Naming.Metric
import Telemetry.Settings.Checked

/-!
# Settings

The settings of a program: how it logs, which exporters it has, and what its pipeline does to snapshots.
They are read from documents; a part that a document leaves out takes its default.

## Main definitions

* `Settings` with its parts `LogSettings`, `ExporterSettings`, `ScrapeSettings`, `MeterSettings` and
  `PipelineSettings`
* `mayLead`: the texts that may stand in front of metric names
* `Settings.ofEntries`, and the same for each part: settings from a document
* `MeterSettings.attributes`: what the meter says about the program
-/

namespace Telemetry

/-- The forms of entries of the log. -/
inductive LogFormat where
  | json
  | text
  deriving DecidableEq

/-- How a program logs. -/
structure LogSettings where
  level : String
  format : LogFormat
  deriving DecidableEq

/-- Whether there is a scrape exporter, and the text in front of its names. -/
structure ScrapeSettings where
  enabled : Bool
  lead : String
  deriving DecidableEq

/-- Whether there is a meter exporter, the text in front of its names, and what its meter is called and
says about the program. -/
structure MeterSettings where
  enabled : Bool
  lead : String
  meterName : String
  resource : List (String × String)
  deriving DecidableEq

/-- The settings of all exporters. -/
structure ExporterSettings where
  scrape : ScrapeSettings
  meter : MeterSettings
  deriving DecidableEq

/-- The text in front of all names, and the labels of all points. -/
structure PipelineSettings where
  nameLead : Option String
  constantLabels : List (String × String)
  deriving DecidableEq

/-- **The settings of a program.** -/
structure Settings where
  log : LogSettings
  exporters : ExporterSettings
  pipeline : PipelineSettings
  deriving DecidableEq

/-- **The texts that may stand in front of metric names**: beginnings of metric names. -/
def mayLead (s : String) : Bool :=
  s.isEmpty || MetricName.grammar.accepts s.toList

/-! ## Defaults -/

def LogSettings.standard : LogSettings :=
  ⟨"INFO", .text⟩

def ScrapeSettings.standard : ScrapeSettings :=
  ⟨true, ""⟩

def MeterSettings.standard : MeterSettings :=
  ⟨false, "", "promsnap", []⟩

def ExporterSettings.standard : ExporterSettings :=
  ⟨.standard, .standard⟩

def PipelineSettings.standard : PipelineSettings :=
  ⟨none, []⟩

/-! ## From documents -/

open Checked

def LogFormat.ofDatum : Datum → Checked LogFormat
  | .text "json" => .ok .json
  | .text "text" => .ok .text
  | _ => refuse (.notChoice "'json' or 'text'")

def LogSettings.ofEntries (entries : List (Datum × Datum)) : Checked LogSettings :=
  (both (member entries "log_level" standard.level text)
    (member entries "log_format" standard.format LogFormat.ofDatum)).map
    fun (level, format) => ⟨level, format⟩

/-- The settings of the scrape exporter, from a document. -/
def ScrapeSettings.ofEntries (entries : List (Datum × Datum)) : Checked ScrapeSettings :=
  (both (member entries "enabled" standard.enabled truth)
    (member entries "prefix" standard.lead text)).map
    fun (enabled, lead) => ⟨enabled, lead⟩

/-- The settings of the meter exporter, from a document. -/
def MeterSettings.ofEntries (entries : List (Datum × Datum)) : Checked MeterSettings :=
  (both (member entries "enabled" standard.enabled truth)
    (both (member entries "prefix" standard.lead text)
      (both (member entries "meter_name" standard.meterName text)
        (member entries "resource" standard.resource texts)))).map
    fun (enabled, lead, meterName, resource) => ⟨enabled, lead, meterName, resource⟩

/-- The settings of all exporters, from a document. -/
def ExporterSettings.ofEntries (entries : List (Datum × Datum)) : Checked ExporterSettings :=
  (both
    (member entries "prometheus" standard.scrape
      (record "PrometheusExporterConfig" ScrapeSettings.ofEntries))
    (member entries "otel" standard.meter (record "OTELExporterConfig" MeterSettings.ofEntries))).map
    fun (scrape, meter) => ⟨scrape, meter⟩

namespace PipelineSettings

def leadOfDatum : Datum → Checked (Option String)
  | .null => .ok none
  | d => (text d).map some

/-- What is wrong with the text in front of all names. -/
def leadFault? (lead : Option String) : Option Fault :=
  match lead with
  | some s => if mayLead s then none else some (.illegalLead s)
  | none => none

/-- What is wrong with the labels of all points: the first illegal name. -/
def labelsFault? (labels : List (String × String)) : Option Fault :=
  labels.findSome? fun (name, _) => (LabelName.problem? name).map (.illegalLabel name)

/-- The settings of a pipeline, from a document. -/
def ofEntries (entries : List (Datum × Datum)) : Checked PipelineSettings :=
  (both
    (member entries "name_prefix" standard.nameLead fun d => ensure leadFault? (leadOfDatum d))
    (member entries "constant_labels" standard.constantLabels fun d =>
      ensure labelsFault? (texts d))).map
    fun (nameLead, constantLabels) => ⟨nameLead, constantLabels⟩

end PipelineSettings

namespace Settings

/-- The part about logging, which has two keys; the first is preferred. -/
def logMember (entries : List (Datum × Datum)) : Checked LogSettings :=
  let check := record "GlobalConfig" LogSettings.ofEntries
  match Datum.lookup entries "global" with
  | some d => under "global" (check d)
  | none => member entries "global_" .standard check

/-- What is wrong with the texts that exporters put in front of names. -/
def exporterFault? (s : Settings) : Option Fault :=
  if !mayLead s.exporters.scrape.lead then
    some (.illegalExporterLead "prometheus" s.exporters.scrape.lead)
  else if !mayLead s.exporters.meter.lead then
    some (.illegalExporterLead "otel" s.exporters.meter.lead)
  else
    none

/-- **The settings in a document.** Only if every part is legal, the parts are compared. -/
def ofEntries (entries : List (Datum × Datum)) : Checked Settings :=
  ensure exporterFault? <|
    (both (logMember entries)
      (both
        (member entries "exporters" .standard (record "ExportersConfig" ExporterSettings.ofEntries))
        (member entries "pipeline" .standard (record "PipelineConfig" PipelineSettings.ofEntries)))).map
      fun (log, exporters, pipeline) => ⟨log, exporters, pipeline⟩

end Settings

/-! ## Attributes of the meter -/

namespace MeterSettings

/-- The attribute that names the program. -/
def serviceKey : String := "service.name"

/-- The name of a program whose executable may be known. -/
def unknownService (attributes : List (String × String)) : String :=
  match attributes.lookup "process.executable.name" with
  | none | some "" => "unknown_service"
  | some executable => "unknown_service:" ++ executable

/-- **What the meter says about the program**: its name, and whatever else the settings give. Attributes
need names, and a program without a name gets one. -/
def attributes (s : MeterSettings) : List (String × String) :=
  let given := (assignAll [(serviceKey, s.meterName)] s.resource).filter fun entry => entry.1 ≠ ""
  if given.lookup serviceKey = some "" then assign serviceKey (unknownService given) given else given

end MeterSettings

end Telemetry
