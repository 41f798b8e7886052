import Telemetry.Error
import Telemetry.Kind

/-!
# Notices

What exporters and pipelines report to the log when they go on in spite of a trouble.

## Main definitions

* `Notice`: the troubles that are reported
* `Notice.level`, `Notice.source`, `Notice.message`: the parts of an entry of the log
-/

namespace Telemetry

/-- **A trouble that is reported to the log.** -/
inductive Notice where
  | instrumentRejected (name : String)
  | kindChanged (name : String) (registered found : Kind)
  | exportFailed (exporter : String) (cause : Error)
  deriving DecidableEq

namespace Notice

/-- How grave a trouble is: a failed export is an error, what an exporter leaves out a warning. -/
def level : Notice → String
  | .instrumentRejected _ | .kindChanged .. => "WARNING"
  | .exportFailed .. => "ERROR"

/-- The part of the program that reports a trouble. -/
def source : Notice → String
  | .instrumentRejected _ | .kindChanged .. => "promsnap.otel_exporter"
  | .exportFailed .. => "promsnap.pipeline"

/-- **A trouble in words.** -/
def message : Notice → String
  | .instrumentRejected name => "Skipping '" ++ name ++ "': OTEL rejected the instrument"
  | .kindChanged name registered found =>
    "Instrument '" ++ name ++ "' was registered as " ++ registered.word ++ ", ignoring " ++ found.word ++
      " snapshot"
  | .exportFailed exporter cause => "Error exporting to " ++ exporter ++ ": " ++ cause.text

end Notice

end Telemetry
