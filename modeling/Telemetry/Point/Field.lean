import Telemetry.Point.Buckets
import Telemetry.Point.Exemplar
import Telemetry.Point.Quantiles
import Telemetry.Point.StateSet

/-!
# Fields of points

A point is made from named fields. Each class of points accepts some of them; what is not given takes a
default.

## Main definitions

* `PointClass`: the classes of points
* `PointClass.fieldNames`: the names of the fields that a class accepts
* `Field`: a name with what is handed over for it
* `Field.insert`: a list of fields with one more assignment
-/

namespace Telemetry

/-- **The classes of points.** -/
inductive PointClass where
  | base
  | info
  | counter
  | gauge
  | unknown
  | histogram
  | summary
  | stateSet
  deriving DecidableEq

namespace PointClass

def title : PointClass → String
  | .base => "DataPointSnapshot"
  | .info => "InfoDataPoint"
  | .counter => "CounterDataPoint"
  | .gauge => "GaugeDataPoint"
  | .unknown => "UnknownDataPoint"
  | .histogram => "HistogramDataPoint"
  | .summary => "SummaryDataPoint"
  | .stateSet => "StateSetDataPoint"

/-- The names of the fields of a class besides labels and timestamps. -/
def ownFieldNames : PointClass → List String
  | .base | .info => []
  | .counter | .gauge | .unknown => ["value", "exemplar"]
  | .histogram => ["buckets", "sum", "exemplars"]
  | .summary => ["count", "sum", "quantiles", "exemplars"]
  | .stateSet => ["states"]

/-- **The names of the fields that a class accepts.** Info points have no creation time. -/
def fieldNames (c : PointClass) : List String :=
  let stamps :=
    if c = .info then ["scrape_timestamp_millis"]
    else ["created_timestamp_millis", "scrape_timestamp_millis"]
  "labels" :: (stamps ++ c.ownFieldNames)

def accepts (c : PointClass) (field : String) : Bool :=
  c.fieldNames.contains field

end PointClass

/-- **A field of a point**: a name with what is handed over for it. -/
inductive Field where
  | labels (l : LabelArgument)
  | created (d : Datum)
  | scrape (d : Datum)
  | value (d : Datum)
  | exemplar (e : Option Exemplar)
  | buckets (b : Option Buckets)
  | sum (d : Datum)
  | count (d : Datum)
  | states (s : StateSource)
  | exemplars (es : Option (List (Option Exemplar)))
  | quantiles (qs : Option (List Quantile))
  | other (name : String) (d : Datum)

namespace Field

def name : Field → String
  | .labels _ => "labels"
  | .created _ => "created_timestamp_millis"
  | .scrape _ => "scrape_timestamp_millis"
  | .value _ => "value"
  | .exemplar _ => "exemplar"
  | .buckets _ => "buckets"
  | .sum _ => "sum"
  | .count _ => "count"
  | .states _ => "states"
  | .exemplars _ => "exemplars"
  | .quantiles _ => "quantiles"
  | .other name _ => name

/-- **One more assignment.** A field that has been assigned keeps its place and takes the new value. -/
def insert (fields : List Field) (field : Field) : List Field :=
  if fields.any fun f => f.name == field.name then
    fields.map fun f => if f.name == field.name then field else f
  else
    fields ++ [field]

def insertAll (fields : List Field) (more : List Field) : List Field :=
  more.foldl insert fields

end Field

end Telemetry
