import Telemetry.Collection
import Telemetry.Dictionary

/-!
# Observations

An instrument sees a metric as observations: values with attributes. Attributes keep the names of labels as
they are, and buckets and quantiles have no observations.

## Main definitions

* `Observation`: a value with attributes
* `DataPoint.observations`: the observations of a point
* `Snapshot.observations`: the observations of a snapshot
-/

namespace Telemetry

/-- **A value with attributes.** -/
structure Observation where
  value : Datum
  attributes : List (String × String)

/-- **The observations of a point** of a metric. Each state is observed under the name of the metric. -/
def DataPoint.observations (metric : String) (p : DataPoint) : List Observation :=
  match p.measurement with
  | .counter value _ => [⟨.number value.number, p.labels.toList⟩]
  | .gauge value _ | .unknown value _ => [⟨value, p.labels.toList⟩]
  | .info => [⟨.whole 1, p.labels.toList⟩]
  | .stateSet states =>
    states.toList.map fun s =>
      ⟨.whole (if s.enabled then 1 else 0), assign metric s.name p.labels.toList⟩
  | .base | .histogram .. | .summary .. => []

/-- **The observations of a snapshot**, point by point. -/
def Snapshot.observations (s : Snapshot) : List Observation :=
  s.points.flatMap (DataPoint.observations s.name)

end Telemetry
