import Telemetry.Error.Report
import Telemetry.Number

/-!
# Failures of points and their parts

## Main definitions

* `Moment`: the timestamps that a point and an exemplar carry
* `PointError`: the causes
* `PointError.report`: the causes in words
-/

namespace Telemetry

/-- The timestamps of points and exemplars. -/
inductive Moment where
  | created
  | scrape
  | exemplar
  deriving DecidableEq

def Moment.title : Moment → String
  | .created => "Created timestamp"
  | .scrape => "Scrape timestamp"
  | .exemplar => "Exemplar timestamp"

/-- **What is wrong with a point or one of its parts.** -/
inductive PointError where
  | missingLabels
  | notLabels (sort : String)
  | exemplarLabels
  | negativeTimestamp (moment : Moment)
  | counterNaN
  | counterNegative (value : Number)
  | bucketLengths (bounds counts : Nat)
  | bucketNaN
  | bucketCountNegative
  | bucketDuplicate (bound : Binary64)
  | bucketTopMissing
  | missingBuckets
  | illegalQuantile (quantile : Number)
  | countNegative (count : Number)
  | quantileDuplicate (quantile : Number)
  | noStates
  | stateUnnamed
  | stateDuplicate (name : String)
  | stateUnknown (written : String)
  deriving DecidableEq

/-- **The causes in words.** -/
def PointError.report : PointError → Report
  | .missingLabels =>
    .plain .invalid "Labels must not be None. Use Labels.EMPTY if there are no labels."
  | .notLabels sort => .plain .invalid ("Expected Labels, got " ++ sort)
  | .exemplarLabels => .plain .invalid "Exemplar labels must be a Labels instance"
  | .negativeTimestamp moment =>
    .plain .invalid
      (moment.title ++ " cannot be negative. Use 0 if the data point doesn't have one.")
  | .counterNaN => .plain .invalid "Counter value cannot be NaN"
  | .counterNegative value => .plain .invalid ("Counter value cannot be negative: " ++ value.text)
  | .bucketLengths bounds counts =>
    .plain .invalid
      ("upper_bounds and counts must have the same length, got " ++ toString bounds ++ " and " ++
        toString counts)
  | .bucketNaN => .plain .invalid "Histogram bucket upper bound cannot be NaN"
  | .bucketCountNegative => .plain .invalid "Histogram bucket counts cannot be negative"
  | .bucketDuplicate bound =>
    .plain .invalid ("Duplicate histogram bucket upper bound " ++ bound.text)
  | .bucketTopMissing => .plain .invalid "Histogram buckets must include the +Inf bucket"
  | .missingBuckets => .plain .invalid "Histogram data point requires buckets"
  | .illegalQuantile quantile =>
    .plain .invalid (quantile.text ++ ": Illegal quantile. Expecting 0 <= quantile <= 1")
  | .countNegative count => .plain .invalid ("Summary count cannot be negative: " ++ count.text)
  | .quantileDuplicate quantile => .plain .invalid ("Duplicate quantile " ++ quantile.text)
  | .noStates => .plain .invalid "StateSet data point must have at least one state"
  | .stateUnnamed => .plain .invalid "State names must not be empty"
  | .stateDuplicate name => .plain .invalid ("Duplicate state name '" ++ name ++ "'")
  | .stateUnknown written => .plain .missingKey written

end Telemetry
