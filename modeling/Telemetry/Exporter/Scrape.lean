import Telemetry.Family

/-!
# The scrape exporter

The scrape exporter holds the collection that it accepted last and serves its families to every scrape until
it is shut down. It refuses collections in which a metric has two points with the same labels.

## Main definitions

* `ScrapeExporter`: a text in front of all names, the held collection, and whether it is served
* `ScrapeExporter.accept`: the exporter after one more collection
* `ScrapeExporter.shutdown`: the exporter that serves no longer
* `ScrapeExporter.families`, `ScrapeExporter.served`: the held families, and those that are served
* `findSample?`: the value under a name and labels
-/

namespace Telemetry

/-- **The scrape exporter.** -/
structure ScrapeExporter where
  lead : String
  held : Collection
  registered : Bool

namespace ScrapeExporter

/-- A new exporter holds nothing and is registered. -/
def new (lead : String) : ScrapeExporter :=
  ⟨lead, .empty, true⟩

/-- The first point that repeats the labels of another, among snapshots. -/
def duplicate? (snapshots : List Snapshot) : Option SnapshotError :=
  snapshots.findSome? fun s =>
    s.duplicateLabels.head?.map fun labels => .duplicateSeries s.exposedName labels.shown

/-- A collection with a text in front of every name, if there is any text. -/
def renamed (lead : String) (c : Collection) : Except Error Collection :=
  if lead.isEmpty then .ok c else c.withNamePrefix lead

/-- **The exporter after one more collection**, which replaces the held one. -/
def accept (e : ScrapeExporter) (c : Collection) : Except Error ScrapeExporter := do
  let c ← renamed e.lead c
  match duplicate? c.snapshots with
  | some cause => .error (.snapshot cause)
  | none => return { e with held := c }

/-- **The exporter that serves no longer.** Only a registered one can be shut down. -/
def shutdown (e : ScrapeExporter) : Except Error ScrapeExporter :=
  if e.registered then .ok { e with registered := false } else .error .notRegistered

def families (e : ScrapeExporter) : Except Error (List Family) :=
  e.held.families

/-- **The families that scrapes see.** -/
def served (e : ScrapeExporter) : Except Error (List Family) :=
  if e.registered then e.families else .ok []

end ScrapeExporter

/-! ## Looking up samples -/

/-- Whether two dictionaries have the same entries, in any order. -/
def sameEntries (a b : List (String × String)) : Bool :=
  a.length == b.length && a.all fun entry => b.lookup entry.1 == some entry.2

/-- **The value under a name and labels**, at the first sample that has both. -/
def findSample? (name : String) (labels : List (String × String)) (samples : List Sample) :
    Option Datum :=
  (samples.find? fun s => s.name == name && sameEntries s.labels labels).map (·.value)

def familySamples (families : List Family) : List Sample :=
  families.flatMap (·.samples)

end Telemetry
