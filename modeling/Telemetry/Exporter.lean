import Telemetry.Exporter.Meter
import Telemetry.Exporter.Sink

/-!
# Exporters

The exporters that a pipeline can be given.

## Main definitions

* `Recorder`: the exporter that remembers the names of what it is given
* `Refuser`: the exporter that always fails
* `Exporter`: all exporters, as a sink
-/

namespace Telemetry

/-- **The exporter that remembers**: the exposed names of every collection that it was given, and whether it
was shut down. -/
structure Recorder where
  name : String
  exported : List (List String)
  stopped : Bool

/-- **The exporter that always fails**, with a message. -/
structure Refuser where
  name : String
  message : String

/-- **An exporter.** -/
inductive Exporter where
  | scrape (e : ScrapeExporter)
  | meter (e : MeterExporter)
  | recorder (e : Recorder)
  | refuser (e : Refuser)

namespace Recorder

def new (name : String) : Recorder :=
  ⟨name, [], false⟩

def accept (e : Recorder) (c : Collection) : Recorder :=
  { e with exported := e.exported ++ [c.exposedNames] }

def shutdown (e : Recorder) : Recorder :=
  { e with stopped := true }

end Recorder

namespace Exporter

def name : Exporter → String
  | .scrape _ => "prometheus"
  | .meter _ => "otel"
  | .recorder e => e.name
  | .refuser e => e.name

/-- An exporter with a collection: instruments are registered at the standard meter. -/
def give (c : Collection) : Exporter → Delivery Exporter
  | .scrape e => (Delivery.ofExcept e (e.accept c)).map .scrape
  | .meter e =>
    match e.accept Meter.standard c with
    | .ok (after, notices) => ⟨.meter after, none, notices⟩
    | .error cause => ⟨.meter e, some cause, []⟩
  | .recorder e => .done (.recorder (e.accept c))
  | .refuser e => ⟨.refuser e, some (.failure e.message), []⟩

def close : Exporter → Delivery Exporter
  | .scrape e => (Delivery.ofExcept e e.shutdown).map .scrape
  | .meter e => .done (.meter e.shutdown)
  | .recorder e => .done (.recorder e.shutdown)
  | .refuser e => .done (.refuser e)

/-- The scrape exporter that an exporter is, if it is one. -/
def scraped? : Exporter → Option ScrapeExporter
  | .scrape e => some e
  | _ => none

instance : Sink Exporter where
  name := name
  give e c := e.give c
  close := close
  scraped? := scraped?

end Exporter

end Telemetry
