import Telemetry.Error.Report

/-!
# Failures of snapshots, collections and builders

## Main definitions

* `SnapshotError`, `BuilderError`: the causes
* `SnapshotError.report`, `BuilderError.report`: the causes in words
-/

namespace Telemetry

/-- **What is wrong with a snapshot, or with several that are to be combined.** -/
inductive SnapshotError where
  | unknownKind (shown : String)
  | missingMetadata
  | missingPoints
  | unitForbidden (kind : String)
  | wrongPoint (kind metric found expected : String)
  | notSnapshot
  | metadataMismatch (metric : String)
  | kindMismatch (kind otherKind : String)
  | duplicateMetric (exposed : String)
  | duplicateSeries (metric labels : String)
  deriving DecidableEq

/-- **The causes in words.** -/
def SnapshotError.report : SnapshotError → Report
  | .unknownKind shown => .plain .invalid ("Unknown metric kind: " ++ shown)
  | .missingMetadata => .plain .invalid "Missing required field: metadata is None"
  | .missingPoints => .plain .invalid "Missing required field: data_points is None"
  | .unitForbidden kind => .plain .invalid (kind ++ " metric cannot have a unit.")
  | .wrongPoint kind metric found expected =>
    ⟨.invalid, kind ++ " metric '" ++ metric ++ "' cannot hold " ++ found, [("expected", expected)]⟩
  | .notSnapshot => .plain .incompatible "Unable to merge - invalid snapshot type"
  | .metadataMismatch metric =>
    ⟨.incompatible, "Unable to merge - metadata mismatch.", [("metric", metric)]⟩
  | .kindMismatch kind otherKind =>
    ⟨.incompatible, "Unable to merge - invalid snapshot type",
      [("kind", kind), ("other_kind", otherKind)]⟩
  | .duplicateMetric exposed =>
    .plain .invalid
      ("Duplicate metric name '" ++ exposed ++
        "'. Use MetricSnapshots.merged() to combine snapshots of the same metric.")
  | .duplicateSeries metric labels => .duplicateSeries metric labels

/-- **What is wrong with a call on a builder.** -/
inductive BuilderError where
  | consumed (target : String)
  | unknownField (target field : String)
  deriving DecidableEq

/-- **The causes in words.** -/
def BuilderError.report : BuilderError → Report
  | .consumed target =>
    .plain .builderReuse ("Builder for " ++ target ++ " was already consumed by build()")
  | .unknownField target field =>
    ⟨.invalid, target ++ " has no field '" ++ field ++ "'.", [("field", field)]⟩

end Telemetry
