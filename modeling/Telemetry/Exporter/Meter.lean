import Telemetry.Exporter.Notice
import Telemetry.Exporter.Scrape
import Telemetry.Observation

/-!
# The meter exporter

The meter exporter registers an instrument at a meter for every metric that it meets, and lets each
instrument observe the snapshot of its name in the collection that was accepted last. The meter may reject
an instrument, also one that it would have taken at another time; a metric whose kind has changed is left
out.

## Main definitions

* `Instrument`: what is registered at the meter
* `Offer`, `Meter`: what a meter was offered, and what it takes after that
* `Meter.standard`: the meter that takes instruments by their names and units
* `MeterExporter`: a text in front of all names, the instruments, and the latest snapshots
* `MeterExporter.accept`: the exporter after one more collection
* `MeterExporter.shutdown`: the exporter without snapshots
* `MeterExporter.observed`: what an instrument observes
-/

namespace Telemetry

/-- Buckets and quantiles cannot be observed. -/
def Kind.isObservable : Kind → Bool
  | .histogram | .summary => false
  | _ => true

/-- **What is registered at the meter.** -/
structure Instrument where
  name : String
  kind : Kind
  unit : String
  help : String
  deriving DecidableEq

namespace Instrument

def ofSnapshot (s : Snapshot) : Instrument where
  name := s.name
  kind := s.kind
  unit := (s.metadata.unit.map (·.name)).getD ""
  help := s.metadata.help.getD ""

/-- Whether an instrument counts; all others measure. -/
def isCounter (i : Instrument) : Bool :=
  i.kind = .counter

/-- The names of instruments: a letter and up to 254 letters, digits, dots, slashes, hyphens and
underscores. -/
def isName : List Char → Bool
  | [] => false
  | first :: rest =>
    first.isAlpha && rest.length ≤ 254 &&
      rest.all fun c => c.isAlphanum || c == '-' || c == '_' || c == '.' || c == '/'

/-- The units of instruments: up to 63 ASCII characters. -/
def isUnit (unit : List Char) : Bool :=
  unit.length ≤ 63 && unit.all fun c => c.toNat < 128

/-- Whether both name and unit of an instrument are legal. -/
def isStandard (i : Instrument) : Bool :=
  isName i.name.toList && isUnit i.unit.toList

end Instrument

/-- **What a meter was offered**, and whether it took it. -/
structure Offer where
  instrument : Instrument
  taken : Bool

/-- **A meter** takes an instrument or rejects it, depending on what it was offered before. -/
def Meter :=
  List Offer → Instrument → Bool

/-- **The standard meter** takes the instruments with legal names and units, whatever came before. -/
def Meter.standard : Meter :=
  fun _ i => i.isStandard

/-- **The meter exporter**: the instruments in the order of their registration, the snapshots that they
observe under their names, and all that was offered to its meter. -/
structure MeterExporter where
  lead : String
  instruments : List Instrument
  latest : List (String × Snapshot)
  offers : List Offer

namespace MeterExporter

def new (lead : String) : MeterExporter :=
  ⟨lead, [], [], []⟩

def find? (e : MeterExporter) (name : String) : Option Instrument :=
  e.instruments.find? (·.name == name)

/-- The exporter with the snapshot of an instrument. -/
def observe (e : MeterExporter) (s : Snapshot) : MeterExporter :=
  { e with latest := assign s.name s e.latest }

/-- The exporter after its meter took an instrument. -/
def register (e : MeterExporter) (i : Instrument) : MeterExporter :=
  { e with instruments := e.instruments ++ [i], offers := e.offers ++ [⟨i, true⟩] }

/-- The exporter after its meter rejected an instrument, which it will be offered again. -/
def reject (e : MeterExporter) (i : Instrument) : MeterExporter :=
  { e with offers := e.offers ++ [⟨i, false⟩] }

/-- **The exporter after one more snapshot.** Its instrument is registered if the meter takes it, and has to
be of its kind. -/
def enroll (meter : Meter) (e : MeterExporter) (s : Snapshot) : MeterExporter × List Notice :=
  if s.kind.isObservable then
    match e.find? s.name with
    | none =>
      if meter e.offers (Instrument.ofSnapshot s) then
        ((e.register (Instrument.ofSnapshot s)).observe s, [])
      else
        (e.reject (Instrument.ofSnapshot s), [.instrumentRejected s.name])
    | some known =>
      if known.kind = s.kind then (e.observe s, [])
      else (e, [.kindChanged s.name known.kind s.kind])
  else
    (e, [])

/-- The exporter after more snapshots, one after the other. -/
def enrollAll (meter : Meter) (e : MeterExporter) : List Snapshot → MeterExporter × List Notice
  | [] => (e, [])
  | s :: rest =>
    let (e, notices) := enroll meter e s
    let (e, others) := enrollAll meter e rest
    (e, notices ++ others)

/-- **The exporter after one more collection**, whose snapshots replace the latest ones. -/
def accept (meter : Meter) (e : MeterExporter) (c : Collection) :
    Except Error (MeterExporter × List Notice) := do
  let c ← ScrapeExporter.renamed e.lead c
  return enrollAll meter { e with latest := [] } c.snapshots

/-- **The exporter without snapshots.** Instruments stay registered. -/
def shutdown (e : MeterExporter) : MeterExporter :=
  { e with latest := [] }

/-- **What an instrument observes.** -/
def observed (e : MeterExporter) (name : String) : List Observation :=
  match e.latest.lookup name with
  | some s => s.observations
  | none => []

end MeterExporter

end Telemetry
