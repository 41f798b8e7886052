import Telemetry.Error.Report
import Telemetry.Naming.Problem

/-!
# Failures of names, units and metadata

## Main definitions

* `NamingError`: the causes
* `NamingError.report`: the causes in words
-/

namespace Telemetry

open Naming (Role Problem)

/-- **What is wrong with a name, a unit or metadata.** Names are given as they are shown. -/
inductive NamingError where
  | emptySource (role : Role)
  | nothingLeft (unit : String)
  | missingUnit
  | illegalUnit (name : String) (problem : Problem)
  | missingMetric
  | illegalMetric (name : String) (problem : Problem)
  | notUnit (metric sort : String)
  deriving DecidableEq

/-- **The causes in words.** -/
def NamingError.report : NamingError → Report
  | .emptySource role =>
    .plain .invalid ("Cannot convert an empty string to a valid " ++ role.word ++ " name.")
  | .nothingLeft unit =>
    ⟨.invalid, "Cannot convert '" ++ unit ++ "' to a valid unit name.", [("unit", unit)]⟩
  | .missingUnit => .plain .invalid "Missing required field: unit name is None"
  | .illegalUnit name problem =>
    .plain .invalid ("'" ++ name ++ "': Illegal unit name. " ++ problem.message .unit)
  | .missingMetric => .plain .invalid "Missing required field: name is None"
  | .illegalMetric name problem =>
    .plain .invalid
      ("'" ++ name ++ "': Illegal metric name. " ++ problem.message .metric ++
        " Call sanitize_metric_name(name) to avoid this error.")
  | .notUnit metric sort =>
    .plain .invalid ("'" ++ metric ++ "': unit must be a Unit, got " ++ sort)

end Telemetry
