import Telemetry.Conversion
import Telemetry.Dictionary
import Telemetry.Family.Bound
import Telemetry.Kind

/-!
# Samples

A scrape sees a metric as samples: named values under exposed labels. A point gives one sample or several;
which ones depends on what it measures.

## Main definitions

* `Sample`, `SampleExemplar`: samples and their exemplars
* `Amount.seconds?`: a timestamp as scrapes see it
* `DataPoint.samples`: the samples of a point
-/

namespace Telemetry

/-- **One observation behind a sample**, as scrapes see it. -/
structure SampleExemplar where
  labels : List (String × String)
  value : Datum
  timestamp : Option Binary64

/-- **A named value under exposed labels.** -/
structure Sample where
  name : String
  labels : List (String × String)
  value : Datum
  timestamp : Option Binary64
  exemplar : Option SampleExemplar

/-- A timestamp in seconds; zero stands for none. -/
def Amount.seconds? (timestamp : Amount) : Except Error (Option Binary64) :=
  if timestamp.isPresent then do
    let millis ← Conversion.toReal timestamp.number
    return some (millis.div (Conversion.tenTo 3))
  else
    .ok none

def Exemplar.toSample (e : Exemplar) : Except Error SampleExemplar := do
  let timestamp ← e.timestamp.seconds?
  return ⟨e.labels.toExposedList, e.value, timestamp⟩

/-- An exemplar that may be missing, as scrapes see it. -/
def Exemplar.toSample? : Option Exemplar → Except Error (Option SampleExemplar)
  | none => .ok none
  | some e => e.toSample.map some

/-- The sums that counts of buckets have, if they can be formed. -/
def summed (total : Option α) : Except Error α :=
  match total with
  | some total => .ok total
  | none => .error (.argument .tooLarge)

namespace DataPoint

/-- The real number that stands for a truth value. -/
def indicator (b : Bool) : Number :=
  .real (if b then .ofDecimal false 1 0 else .zero false)

/-- A sample of a point, whose labels may have been extended. -/
def sample (p : DataPoint) (timestamp : Option Binary64) (name : String)
    (extra : List (String × String)) (value : Datum) : Sample where
  name := name
  labels := assignAll p.labels.toExposedList extra
  value := value
  timestamp := timestamp
  exemplar := none

/-- The sample that says when a point was created, if it says so. -/
def createdSamples (p : DataPoint) (timestamp : Option Binary64) (family : String) :
    Except Error (List Sample) := do
  match ← p.created.seconds? with
  | none => return []
  | some created =>
    return [p.sample timestamp (family ++ "_created") [] (.number (.real created))]

def sumSamples (p : DataPoint) (timestamp : Option Binary64) (family : String) (sum : Datum) :
    List Sample :=
  match sum with
  | .null => []
  | sum => [p.sample timestamp (family ++ "_sum") [] sum]

/-- The samples of buckets: the counts up to each bound, and the count of everything. -/
def bucketSamples (p : DataPoint) (timestamp : Option Binary64) (family : String) (buckets : Buckets) :
    Except Error (List Sample) := do
  let totals ← summed buckets.cumulative?
  let count ← summed buckets.count?
  return buckets.bounds.zipWith
      (fun bound total =>
        p.sample timestamp (family ++ "_bucket") [("le", bound.boundText)] (.number total)) totals ++
    [p.sample timestamp (family ++ "_count") [] (.number count)]

def shareText (q : Quantile) : Except Error String := do
  let share ← Conversion.toReal q.share
  return share.boundText

def quantileSamples (p : DataPoint) (timestamp : Option Binary64) (family : String) :
    List Quantile → Except Error (List Sample)
  | [] => .ok []
  | q :: rest => do
    let share ← shareText q
    let samples ← quantileSamples p timestamp family rest
    return p.sample timestamp family [("quantile", share)] q.value :: samples

/-- The samples of states: each says under the name of the family whether it holds. -/
def stateSamples (p : DataPoint) (timestamp : Option Binary64) (family : String) (states : StateSet) :
    List Sample :=
  states.toList.map fun s =>
    p.sample timestamp family [(family, s.name)] (.number (indicator s.enabled))

/-- **The samples of a point** in a family of a name. -/
def samples (p : DataPoint) (family : String) : Except Error (List Sample) := do
  let timestamp ← p.scrape.seconds?
  match p.measurement with
  | .base => return []
  | .info => return [p.sample timestamp (family ++ "_info") [] (.number (indicator true))]
  | .counter value exemplar =>
    let exemplar ← Exemplar.toSample? exemplar
    let created ← p.createdSamples timestamp family
    return { p.sample timestamp (family ++ "_total") [] (.number value.number) with
      exemplar := exemplar } :: created
  | .gauge value exemplar | .unknown value exemplar =>
    let exemplar ← Exemplar.toSample? exemplar
    return [{ p.sample timestamp family [] value with exemplar := exemplar }]
  | .histogram buckets sum _ =>
    let counts ← p.bucketSamples timestamp family buckets
    let created ← p.createdSamples timestamp family
    return counts ++ p.sumSamples timestamp family sum ++ created
  | .summary count sum quantiles _ =>
    let shares ← p.quantileSamples timestamp family quantiles.toList
    let created ← p.createdSamples timestamp family
    let counts := count.toList.map fun n =>
      p.sample timestamp (family ++ "_count") [] (.number n.number)
    return shares ++ counts ++ p.sumSamples timestamp family sum ++ created
  | .stateSet states => return p.stateSamples timestamp family states

end DataPoint

end Telemetry
