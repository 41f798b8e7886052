import Telemetry.Builder.Basic
import Telemetry.Point.Quantiles

/-!
# Builders of named values

A builder of named values takes any names; what is made of the values decides which names it knows.

## Main definitions

* `FieldsBuilder`: the builder
* `BuilderClass.fields`: the class of these builders
* `FieldsBuilder.set`: values assigned to names
* `FieldTarget`: what is made of named values
* `FieldTarget.quantile`, `FieldTarget.state`, `FieldTarget.fields`: quantiles, states, and the values
  themselves
-/

namespace Telemetry

/-- A builder of named values. -/
abbrev FieldsBuilder : Type :=
  Builder (List (String × Datum))

/-- **The class of builders of named values**, whose one call assigns values to names. -/
def BuilderClass.fields :
    BuilderClass (List (String × Datum)) (List (String × Datum)) (List (String × Datum)) where
  owner := "Builder"
  names fields := fields.map (·.1)
  change fields known := .ok (assignAll known fields)
  arguments := .ok

/-- **Values assigned to names.** -/
def FieldsBuilder.set (b : FieldsBuilder) (fields : List (String × Datum)) : Except Error FieldsBuilder :=
  BuilderClass.fields.call b fields

/-- **What is made of named values.** -/
structure FieldTarget (β : Type) where
  title : String
  make : List (String × Datum) → Except Error β

namespace FieldTarget

def builder (t : FieldTarget β) : FieldsBuilder :=
  .new t.title []

/-- Named values, all of which have to be known to a target. -/
def checkKnown (title : String) (known : List String) (fields : List (String × Datum)) :
    Except Error Unit :=
  match fields.find? fun entry => !known.contains entry.1 with
  | some entry => .error (.argument (.unexpectedField title entry.1))
  | none => .ok ()

def quantile : FieldTarget Quantile where
  title := "Quantile"
  make fields := do
    checkKnown "Quantile" ["quantile", "value"] fields
    Quantile.make (fields.lookup "quantile") (fields.lookup "value")

/-- The parts of a state, which are not checked. -/
def state : FieldTarget (Datum × Datum) where
  title := "State"
  make fields := do
    checkKnown "State" ["name", "enabled"] fields
    match fields.lookup "name", fields.lookup "enabled" with
    | some name, some enabled => return (name, enabled)
    | none, some _ => .error (.argument (.missingFields "State" ["name"]))
    | some _, none => .error (.argument (.missingFields "State" ["enabled"]))
    | none, none => .error (.argument (.missingFields "State" ["name", "enabled"]))

/-- The named values themselves, in the order of their names. -/
def fields : FieldTarget (List (String × Datum)) where
  title := "fields"
  make fields := .ok (fields.mergeSort fun a b => a.1 ≤ b.1)

end FieldTarget

end Telemetry
