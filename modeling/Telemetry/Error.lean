import Telemetry.Error.Argument
import Telemetry.Error.Label
import Telemetry.Error.Naming
import Telemetry.Error.Point
import Telemetry.Error.Snapshot

/-!
# Failures

Every operation of the library that can fail says why by a cause. The causes are grouped by what they are
about, and put into words in one place per group.

## Main definitions

* `Error`: the causes
* `Error.report`, `Error.category`, `Error.text`: the causes in words
-/

namespace Telemetry

/-- **Why an operation failed.** -/
inductive Error where
  | argument (e : ArgumentError)
  | naming (e : NamingError)
  | label (e : LabelError)
  | point (e : PointError)
  | snapshot (e : SnapshotError)
  | builder (e : BuilderError)
  | notRegistered
  | negativeIncrement
  | failure (message : String)
  deriving DecidableEq

namespace Error

/-- **The cause in words.** -/
def report : Error → Report
  | .argument e => e.report
  | .naming e => e.report
  | .label e => e.report
  | .point e => e.report
  | .snapshot e => e.report
  | .builder e => e.report
  | .notRegistered => .plain .missingKey ""
  | .negativeIncrement =>
    .plain .wrongValue "Counters can only be incremented by non-negative amounts."
  | .failure message => .plain .failure message

def category (e : Error) : Category :=
  e.report.category

def text (e : Error) : String :=
  e.report.text

end Error

end Telemetry
