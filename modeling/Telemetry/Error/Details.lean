import Telemetry.Labels

/-!
# Details of failures

A failure of the snapshot model can be reported by hand, from details that are put into words. Most failures
have a message and a context; those about labels say in their details what they are about.

## Main definitions

* `Category.details`: the names of the details of a failure
* `Report.ofDetails`: the report of a failure from its details
-/

namespace Telemetry

/-- **The names of the details of a failure.** -/
def Category.details : Category → List String
  | .duplicateSeries => ["metric_name", "labels"]
  | .labelConflict => ["name", "value", "other_value"]
  | _ => ["message"]

/-- In whose name details are asked for: failures that have a message share one. -/
def Category.asking : Category → String
  | .duplicateSeries => "DuplicateLabelsError"
  | .labelConflict => "LabelConflictError"
  | _ => "SnapshotError"

/-- A message with a context can be of any sort; without one it has to be a text. -/
def Report.ofMessage (c : Category) (message : LabelArgument) (context : List (String × String)) :
    Except Error Report :=
  match message, context with
  | .datum (.text s), context => .ok ⟨c, s, context⟩
  | message, [] => .error (.argument (.notText message.typeName))
  | message, context => .ok ⟨c, message.shown, context⟩

/-- How many details there are at most; a message may be followed by a context. -/
def Category.mostDetails : Category → Nat
  | .duplicateSeries => 2
  | .labelConflict => 3
  | _ => 2

/-- The numbers of arguments with which a failure can be made, counting the failure itself. -/
def Category.arity : Category → String
  | .duplicateSeries => "3"
  | .labelConflict => "4"
  | _ => "from 2 to 3"

/-- **The report of a failure from its details**, all of which have to be given, and no more. -/
def Report.ofDetails (c : Category) (details : List LabelArgument) (context : List (String × String)) :
    Except Error Report :=
  match c, details with
  | .duplicateSeries, [metric, labels] => .ok (.duplicateSeries metric.shown labels.shown)
  | .labelConflict, [name, value, otherValue] =>
    .ok (.labelConflict name.shown value.shown otherValue.shown)
  | c, details =>
    match details, c.details.drop details.length with
    | message :: _, [] =>
      if c.mostDetails < details.length then
        .error (.argument (.surplus c.asking c.arity (details.length + 1)))
      else Report.ofMessage c message context
    | _, missing => .error (.argument (.missingFields c.asking missing))

end Telemetry
