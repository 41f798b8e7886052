import Telemetry.Error.Report
import Telemetry.Naming.Problem

/-!
# Failures of label sets

## Main definitions

* `LabelError`: the causes
* `LabelError.report`: the causes in words
-/

namespace Telemetry

open Naming (Problem)

/-- **What is wrong with a label set, or with two that are to be united.** -/
inductive LabelError where
  | lengths (names values : Nat)
  | oddCount (count : Nat)
  | missingName
  | illegalName (name : String) (problem : Problem)
  | missingValue (name : String)
  | valueNotText (name sort : String)
  | duplicate (exposed first second : String)
  | existing (name : String)
  | collision (known name exposed : String)
  | conflict (name value otherValue : String)
  deriving DecidableEq

def LabelError.illegalNameText (name : String) (problem : Problem) : String :=
  "'" ++ name ++ "': Illegal label name. " ++ problem.message .label

/-- **The causes in words.** -/
def LabelError.report : LabelError → Report
  | .lengths names values =>
    .plain .invalid
      ("Labels need the same number of names and values, got " ++ toString names ++ " names and " ++
        toString values ++ " values")
  | .oddCount count =>
    .plain .invalid ("Labels.of() needs an even number of arguments, got " ++ toString count)
  | .missingName => .plain .invalid "Label name must not be None"
  | .illegalName name problem => .plain .invalid (illegalNameText name problem)
  | .missingValue name => .plain .invalid ("Label '" ++ name ++ "': value must not be None")
  | .valueNotText name sort =>
    .plain .invalid ("Label '" ++ name ++ "': value must be a string, got " ++ sort)
  | .duplicate exposed first second =>
    ⟨.invalid, "Duplicate label name '" ++ exposed ++ "'", [("names", first ++ "," ++ second)]⟩
  | .existing name => .plain .invalid ("Duplicate label name '" ++ name ++ "'")
  | .collision known name exposed =>
    .plain .incompatible
      ("Label names '" ++ known ++ "' and '" ++ name ++ "' collide as '" ++ exposed ++ "'")
  | .conflict name value otherValue => .labelConflict name value otherValue

end Telemetry
