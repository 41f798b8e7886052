import Telemetry.Exporter.Sink

/-!
# Self metrics

A pipeline measures itself: how many snapshots it handed over, how often each exporter failed, and how long
collecting took. The measurements are served to scrapes beside the exported families.

## Main definitions

* `Tally`: amounts that were added up
* `SelfMetrics`: the measurements
* `SelfMetrics.recordSnapshots`, `SelfMetrics.recordFailure`, `SelfMetrics.recordDuration`: one more
  measurement
* `SelfMetrics.samples`: the measurements as scrapes see them
-/

namespace Telemetry

/-- **Amounts that were added up**, in order. -/
structure Tally where
  amounts : List Binary64
  deriving DecidableEq

namespace Tally

def empty : Tally :=
  ⟨[]⟩

def add (t : Tally) (amount : Binary64) : Tally :=
  ⟨t.amounts ++ [amount]⟩

/-- **The sum**, rounded after every addition. -/
def total (t : Tally) : Binary64 :=
  t.amounts.foldl Binary64.add (.zero false)

end Tally

/-- **The measurements of a pipeline.** Failures are counted for each exporter. -/
structure SelfMetrics where
  lead : String
  snapshots : Tally
  failures : List (String × Nat)
  durations : Tally
  deriving DecidableEq

namespace SelfMetrics

def new (lead : String) : SelfMetrics :=
  ⟨lead, .empty, [], .empty⟩

/-! ## Recording -/

/-- An amount as a binary64 number that is added to others. -/
def addend : Datum → Except Error Binary64
  | .number n => Conversion.toReal n
  | d => .error (.argument (.unsupportedOperands "+=" "float" d.typeName))

def countSnapshots (m : SelfMetrics) (n : Nat) : SelfMetrics :=
  { m with snapshots := m.snapshots.add (.ofDecimal false n 0) }

/-- One more duration of a number of seconds. -/
def addDuration (m : SelfMetrics) (seconds : Binary64) : SelfMetrics :=
  { m with durations := m.durations.add seconds }

/-- **One more number of snapshots**, which must not be negative. -/
def recordSnapshots (m : SelfMetrics) : Datum → Except Error SelfMetrics
  | .number n =>
    if n.isNegative then .error .negativeIncrement
    else do
      let amount ← Conversion.toReal n
      return { m with snapshots := m.snapshots.add amount }
  | d => .error (.argument (.notOrdered d.typeName "int"))

/-- **One more failure of an exporter.** -/
def recordFailure (m : SelfMetrics) (exporter : String) : SelfMetrics :=
  { m with failures := assign exporter ((m.failures.lookup exporter).getD 0 + 1) m.failures }

/-- **One more duration**, in seconds. -/
def recordDuration (m : SelfMetrics) (seconds : Datum) : Except Error SelfMetrics := do
  let amount ← addend seconds
  return m.addDuration amount

/-! ## Views -/

/-- The upper bounds of the buckets of durations: milliseconds as a decimal of three places. -/
def durationBounds : List Binary64 :=
  ([1, 5, 10, 25, 50, 100, 250, 500, 1000].map fun millis => .ofDecimal false millis (-3)) ++
    [.infinite false]

def count (n : Nat) : Datum :=
  .number (.real (.ofDecimal false n 0))

def durationsUpTo (m : SelfMetrics) (bound : Binary64) : Nat :=
  m.durations.amounts.countP fun amount => Number.le (.real amount) (.real bound)

def snapshotsName (m : SelfMetrics) : String :=
  m.lead ++ "pipeline_snapshots_total"

def failuresName (m : SelfMetrics) : String :=
  m.lead ++ "pipeline_export_errors_total"

def durationsName (m : SelfMetrics) : String :=
  m.lead ++ "pipeline_collect_duration_seconds"

def sample (name : String) (labels : List (String × String)) (value : Datum) : Sample :=
  ⟨name, labels, value, none, none⟩

/-- **The measurements as scrapes see them.** Durations are counted up to each bound. -/
def samples (m : SelfMetrics) : List Sample :=
  sample m.snapshotsName [] (.number (.real m.snapshots.total)) ::
    (m.failures.map fun (exporter, n) => sample m.failuresName [("exporter", exporter)] (count n)) ++
    (durationBounds.map fun bound =>
      sample (m.durationsName ++ "_bucket") [("le", bound.boundText)] (count (m.durationsUpTo bound))) ++
    [sample (m.durationsName ++ "_count") [] (count (m.durationsUpTo (.infinite false))),
      sample (m.durationsName ++ "_sum") [] (.number (.real m.durations.total))]

end SelfMetrics

end Telemetry
