import Telemetry.Datum
import Telemetry.Error

/-!
# Conversion of quantities

Durations and sizes in other units. Divisions give binary64 numbers; a whole number of kilobytes is a whole
number of bytes.

## Main definitions

* `Conversion.operand`: the number that is converted
* `Conversion.nanosToSeconds`, `Conversion.millisToSeconds`, `Conversion.secondsToMillis`: durations
* `Conversion.kilobytesToBytes`: sizes
-/

namespace Telemetry

namespace Conversion

def toReal (n : Number) : Except Error Binary64 :=
  match n.toBinary64? with
  | some x => .ok x
  | none => .error (.argument .tooLarge)

/-- The number that a datum is as the left operand of an operation. -/
def operand (operation right : String) : Datum → Except Error Number
  | .number n => .ok n
  | d => .error (.argument (.unsupportedOperands operation d.typeName right))

def tenTo (exponent : Nat) : Binary64 :=
  .ofDecimal false 1 exponent

def nanosToSeconds (nanos : Number) : Except Error Number := do
  return .real ((← toReal nanos).div (tenTo 9))

def millisToSeconds (millis : Number) : Except Error Number := do
  return .real ((← toReal millis).div (tenTo 3))

def secondsToMillis (seconds : Number) : Except Error Number := do
  return .real ((← toReal seconds).mul (tenTo 3))

/-- Kilobytes in bytes: `1024` each. A whole number stays whole. -/
def kilobytesToBytes (kilobytes : Number) : Except Error Number :=
  match kilobytes.whole? with
  | some n => .ok (.whole (n * 1024))
  | none => do return .real ((← toReal kilobytes).mul (.ofDecimal false 1024 0))

end Conversion

end Telemetry
