import Telemetry.Argument
import Telemetry.Naming.Label
import Telemetry.Naming.Metric
import Telemetry.Naming.Unit

/-!
# Naming

Names come as unchecked data. What is no text is no name, and only texts can be brought into a grammar.

## Main definitions

* `Naming.problem?`: what is wrong with a datum as a name
* `Naming.sanitize`: the nearest name to a datum
* `Naming.exposedDatum`: the exposed name of a datum

## Main results

* `Naming.sanitize_text`: a text that is not empty can be brought into the grammar of metric and label
  names
-/

namespace Telemetry.Naming

/-- What is wrong with a text as a name for a role. -/
def textProblem? : Role → String → Option Problem
  | .metric => MetricName.problem?
  | .label => LabelName.problem?
  | .unit => UnitName.problem?

/-- **What is wrong with a datum as a name** for a role. -/
def problem? (role : Role) : Datum → Option Problem
  | .text name => textProblem? role name
  | _ => some .notText

def isBlankText (text : String) : Bool :=
  text.toList.all Text.isBlank

def sanitizeUnit (text : String) : Except Error String :=
  if isBlankText text then .error (.naming (.emptySource .unit))
  else match UnitName.sanitize? text with
    | some name => .ok name
    | none => .error (.naming (.nothingLeft text))

/-- The nearest name to a text that is not empty. -/
def sanitizeText : Role → String → Except Error String
  | .metric, text => .ok (MetricName.sanitize text)
  | .label, text => .ok (LabelName.sanitize text)
  | .unit, text => sanitizeUnit text

/-- Why a datum that is no text cannot be brought into a grammar. Units are trimmed first, which only
texts and bytes can be. -/
def sourceError : Role → Datum → Error
  | .unit, .bytes octets =>
    if octets.all fun octet => octet == 32 || (9 ≤ octet && octet ≤ 13) then
      .naming (.emptySource .unit)
    else
      .argument .bytesGiven
  | .unit, d => .argument (.noAttribute d.typeName "strip")
  | _, .bytes _ => .argument .bytesGiven
  | _, d => .argument (.textExpected d.typeName)

/-- **The nearest name to a datum** for a role. Whatever counts as false has none. -/
def sanitize (role : Role) (d : Datum) : Except Error String :=
  if !d.isTruthy then .error (.naming (.emptySource role))
  else match d with
    | .text text => sanitizeText role text
    | d => .error (sourceError role d)

/-- **The exposed name of a datum**, which only texts have. -/
def exposedDatum : Datum → Except Error String
  | .text name => .ok (exposed name)
  | .bytes _ => .error (.argument .bytesExpected)
  | d => .error (.argument (.noAttribute d.typeName "replace"))

theorem sanitize_text (role : Role) {text : String} (h : text.isEmpty = false) :
    sanitize role (.text text) = sanitizeText role text := by
  simp [sanitize, Datum.isTruthy, h]

end Telemetry.Naming
