import Telemetry.Exporter
import Telemetry.Pipeline.Collector
import Telemetry.SelfMetrics
import Telemetry.Settings

/-!
# Pipelines

In every pass a pipeline gathers the snapshots of its collectors, merges them, renames and relabels them,
and gives the result to every exporter. The failure of an exporter is counted and reported to the log, and
does not keep the others from being served.

## Main definitions

* `Pipeline`: collectors, exporters and counts
* `PipelineSettings.apply`: what becomes of the gathered snapshots
* `Pipeline.collect`, `Pipeline.runOnce`, `Pipeline.stop`: the calls
* `Pipeline.samples`: what scrapes see of the first exporter that serves them
-/

namespace Telemetry

/-! ## Settings -/

namespace PipelineSettings

/-- A collection with the text of the settings in front of all names. -/
def rename (s : PipelineSettings) (c : Collection) : Except Error Collection :=
  match s.nameLead with
  | none | some "" => .ok c
  | some lead => c.withNamePrefix lead

def labelsDatum (labels : List (String × String)) : Datum :=
  .dict (labels.map fun (name, value) => (.text name, .text value))

/-- A collection with the labels of the settings at all points. -/
def relabel (s : PipelineSettings) (c : Collection) : Except Error Collection :=
  if s.constantLabels.isEmpty then .ok c
  else c.withLabels (.datum (labelsDatum s.constantLabels))

/-- **What becomes of the gathered snapshots**: they are merged, renamed and relabelled. -/
def apply (s : PipelineSettings) (snapshots : List SnapshotArgument) : Except Error Collection := do
  let merged ← Collection.mergedArguments snapshots
  let renamed ← s.rename merged
  s.relabel renamed

end PipelineSettings

def ExporterSettings.exporters (s : ExporterSettings) : List Exporter :=
  (if s.scrape.enabled then [.scrape (.new s.scrape.lead)] else []) ++
    (if s.meter.enabled then [.meter (.new s.meter.lead)] else [])

/-! ## Accounts -/

/-- **What a pipeline keeps account of**: how often each exporter failed, and what it says about itself to
scrapes. -/
structure Account where
  failures : List (String × Nat)
  selfMetrics : Option SelfMetrics
  deriving DecidableEq

def Account.addFailure (a : Account) (exporter : String) : Account where
  failures := assign exporter ((a.failures.lookup exporter).getD 0 + 1) a.failures
  selfMetrics := a.selfMetrics.map fun m => m.recordFailure exporter

def Account.addDuration (a : Account) (seconds : Binary64) : Account :=
  { a with selfMetrics := a.selfMetrics.map fun m => m.addDuration seconds }

def Account.addSnapshots (a : Account) (n : Nat) : Account :=
  { a with selfMetrics := a.selfMetrics.map fun m => m.countSnapshots n }

/-- The account of a delivery to an exporter. -/
def Account.addDelivery (a : Account) (exporter : String) (d : Delivery ε) : Account :=
  match d.failure with
  | some _ => a.addFailure exporter
  | none => a

/-- What the log says of a delivery to an exporter. -/
def Delivery.report (exporter : String) (d : Delivery ε) : List Notice :=
  d.notices ++ (d.failure.map (.exportFailed exporter)).toList

/-! ## Pipelines -/

/-- **A pipeline.** -/
structure Pipeline (γ ε : Type) where
  settings : PipelineSettings
  collectors : List γ
  exporters : List ε
  passes : Nat
  account : Account

/-- **The outcome of a call**: its result, the pipeline after it, and what it reports to the log. -/
structure Outcome (γ ε α : Type) where
  result : Except Error α
  after : Pipeline γ ε
  notices : List Notice

namespace Pipeline

variable {γ ε : Type} [Source γ] [Sink ε]

/-- A pipeline that has made no pass. It measures itself if one of its exporters serves scrapes. -/
def new (settings : PipelineSettings) (collectors : List γ) (exporters : List ε) : Pipeline γ ε where
  settings := settings
  collectors := collectors
  exporters := exporters
  passes := 0
  account := ⟨[], (exporters.findSome? Sink.scraped?).map fun e => .new e.lead⟩

def addCollector (p : Pipeline γ ε) (collector : γ) : Pipeline γ ε :=
  { p with collectors := p.collectors ++ [collector] }

/-- **The collection of the moment**, without giving it to anyone. -/
def collect (p : Pipeline γ ε) : Except Error Collection × Pipeline γ ε :=
  let (snapshots, collectors) := Source.gatherAll p.collectors
  (snapshots >>= p.settings.apply, { p with collectors := collectors })

/-- Exporters given a collection one after the other, with the account and the log of their deliveries. An
exporter is accounted for under the name that it has after the call. -/
def giveAll (c : Collection) (a : Account) : List ε → List ε × Account × List Notice
  | [] => ([], a, [])
  | exporter :: rest =>
    let delivery := Sink.give exporter c
    let name := Sink.name delivery.after
    let (others, a, notices) := giveAll c (a.addDelivery name delivery) rest
    (delivery.after :: others, a, delivery.report name ++ notices)

/-- **One pass.** Only if collecting succeeds, exporters are given the collection and the pass is counted.
Collecting took the given time. -/
def runOnce (elapsed : Binary64) (p : Pipeline γ ε) : Outcome γ ε Collection :=
  match p.collect with
  | (.error cause, after) => ⟨.error cause, after, []⟩
  | (.ok c, after) =>
    let (exporters, account, notices) := giveAll c (after.account.addDuration elapsed) after.exporters
    ⟨.ok c,
      { after with
        exporters := exporters
        passes := after.passes + 1
        account := account.addSnapshots c.size },
      notices⟩

/-- Exporters shut down one after the other, up to the first that fails. -/
def closeAll : List ε → Except Error Unit × List ε
  | [] => (.ok (), [])
  | exporter :: rest =>
    let delivery := Sink.close exporter
    match delivery.failure with
    | some cause => (.error cause, delivery.after :: rest)
    | none =>
      let (result, others) := closeAll rest
      (result, delivery.after :: others)

/-- **All exporters shut down.** -/
def stop (p : Pipeline γ ε) : Outcome γ ε Unit :=
  let (result, exporters) := closeAll p.exporters
  ⟨result, { p with exporters := exporters }, []⟩

/-- The samples that a pipeline says about itself. -/
def selfSamples (p : Pipeline γ ε) : List Sample :=
  match p.account.selfMetrics with
  | some m => m.samples
  | none => []

/-- **What scrapes see** of the first exporter that serves them: its families, and then what the pipeline
says about itself. -/
def samples (p : Pipeline γ ε) : Except Error (List Sample) := do
  match p.exporters.findSome? Sink.scraped? with
  | some e => return familySamples (← e.served) ++ p.selfSamples
  | none => return p.selfSamples

end Pipeline

end Telemetry
