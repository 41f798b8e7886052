import Telemetry.Naming

/-!
# Units of measure

A unit of measure has a name that is appended to metric names, so the name follows the rules for unit
names. Blanks around it are dropped.

## Main definitions

* `MeasureUnit`: units of measure
* `MeasureUnit.ofDatum`: the unit of a name
* `MeasureUnit.seconds`, `MeasureUnit.bytes`, …: the units in common use
-/

namespace Telemetry

/-- **A unit of measure** with a legal name. -/
@[ext]
structure MeasureUnit where
  name : String
  legal : UnitName.problem? name = none
  deriving DecidableEq

namespace MeasureUnit

/-- The unit of a name without blanks around it; messages show the name as given. -/
def ofName (given name : String) : Except Error MeasureUnit :=
  match h : UnitName.problem? name with
  | some problem => .error (.naming (.illegalUnit given problem))
  | none => .ok ⟨name, h⟩

/-- **The unit of a name.** -/
def ofDatum : Datum → Except Error MeasureUnit
  | .null => .error (.naming .missingUnit)
  | .text given => ofName given (String.ofList (Text.trim Text.isBlank given.toList))
  | .bytes octets => .error (.naming (.illegalUnit (Datum.bytes octets).shown .notText))
  | d => .error (.argument (.noAttribute d.typeName "strip"))

def ratio : MeasureUnit := ⟨"ratio", by decide⟩

def seconds : MeasureUnit := ⟨"seconds", by decide⟩

def bytes : MeasureUnit := ⟨"bytes", by decide⟩

def celsius : MeasureUnit := ⟨"celsius", by decide⟩

def joules : MeasureUnit := ⟨"joules", by decide⟩

def grams : MeasureUnit := ⟨"grams", by decide⟩

def meters : MeasureUnit := ⟨"meters", by decide⟩

def volts : MeasureUnit := ⟨"volts", by decide⟩

def amperes : MeasureUnit := ⟨"amperes", by decide⟩

/-- **The units with names of their own.** -/
def predefined : List MeasureUnit :=
  [ratio, seconds, bytes, celsius, joules, grams, meters, volts, amperes]

def display (u : MeasureUnit) : Display :=
  .record "Unit" [("name", .ofString u.name)]

end MeasureUnit

end Telemetry
