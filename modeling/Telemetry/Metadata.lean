import Telemetry.MeasureUnit

/-!
# Metadata

The metadata of a metric are its name, a help text and a unit. The name has no suffix that exposition
formats add.

## Main definitions

* `Metadata`: the metadata of a metric
* `UnitArgument`: what is handed over for a unit
* `Metadata.make`: metadata from unchecked parts
* `Metadata.exposedName`: the name as it is exposed
* `Metadata.withNamePrefix`: the metadata with a text in front of the name

## Main results

* `Metadata.make_parts`: metadata are made again from their parts
-/

namespace Telemetry

/-- **The metadata of a metric**, with a legal name. -/
@[ext]
structure Metadata where
  name : String
  help : Option String
  unit : Option MeasureUnit
  legal : MetricName.problem? name = none
  deriving DecidableEq

/-- What is handed over for a unit. -/
inductive UnitArgument where
  | unit (u : MeasureUnit)
  | datum (d : Datum)

namespace UnitArgument

/-- What an argument is by its datum, if it is no unit. -/
def datum? : UnitArgument → Option Datum
  | .unit _ => none
  | .datum d => some d

def eq : UnitArgument → UnitArgument → Bool
  | .unit a, .unit b => a == b
  | .datum a, .datum b => a.eq b
  | _, _ => false

/-- The form in which records show an argument. -/
def display : UnitArgument → Display
  | .unit u => u.display
  | .datum d => d.display

end UnitArgument

namespace Metadata

/-- The name as it is exposed: underscores for dots. -/
def exposedName (m : Metadata) : String :=
  Naming.exposed m.name

def hasUnit (m : Metadata) : Bool :=
  m.unit.isSome

def checkName (name : Datum) : Except Error { s : String // MetricName.problem? s = none } :=
  match name with
  | .null => .error (.naming .missingMetric)
  | .text s =>
    match h : MetricName.problem? s with
    | some problem => .error (.naming (.illegalMetric s problem))
    | none => .ok ⟨s, h⟩
  | d => .error (.naming (.illegalMetric d.shown .notText))

def checkUnit (metric : String) : UnitArgument → Except Error (Option MeasureUnit)
  | .unit u => .ok (some u)
  | .datum .null => .ok none
  | .datum d => .error (.naming (.notUnit metric d.typeName))

/-- **Metadata from unchecked parts.** The name is checked before the unit. -/
def make (name : Datum) (help : Option String) (unit : UnitArgument) : Except Error Metadata := do
  let legalName ← checkName name
  let unit ← checkUnit legalName.1 unit
  return ⟨legalName.1, help, unit, legalName.2⟩

def unitArgument (m : Metadata) : UnitArgument :=
  match m.unit with
  | some u => .unit u
  | none => .datum .null

/-- **A text in front of the name.** The longer name has to be legal again. -/
def withNamePrefix (m : Metadata) (lead : String) : Except Error Metadata :=
  make (.text (lead ++ m.name)) m.help m.unitArgument

def display (m : Metadata) : Display :=
  .record "MetricMetadata" [
    ("name", .ofString m.name),
    ("help", (m.help.map Datum.text |>.getD .null).display),
    ("unit", (m.unit.map MeasureUnit.display).getD Datum.null.display),
    ("prometheus_name", .ofString m.exposedName)]

theorem checkName_text {s : String} (h : MetricName.problem? s = none) :
    checkName (.text s) = .ok ⟨s, h⟩ := by
  simp only [checkName]
  split
  · next problem hp =>
    rw [h] at hp
    exact absurd hp (by simp)
  · rfl

/-- Metadata are made again from their parts. -/
theorem make_parts (m : Metadata) : make (.text m.name) m.help m.unitArgument = .ok m := by
  obtain ⟨name, help, unit, legal⟩ := m
  cases unit <;> simp [make, checkName_text legal, unitArgument, checkUnit, bind, Except.bind, pure,
    Except.pure]

end Metadata

end Telemetry
