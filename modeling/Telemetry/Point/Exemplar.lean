import Telemetry.Labels
import Telemetry.Point.Amount

/-!
# Exemplars

An exemplar is one observation behind a sample, with labels of its own such as a trace id.

## Main definitions

* `Exemplar`: the observation
* `Exemplar.make`: an exemplar from unchecked parts
* `Exemplar.eq`: equality by value
-/

namespace Telemetry

/-- **One observation behind a sample.** Its value is not checked. -/
structure Exemplar where
  value : Datum
  labels : Labels
  timestamp : Amount

namespace Exemplar

/-- **An exemplar from unchecked parts.** Only the value has to be given; without labels and timestamp it
has no labels and no timestamp. -/
def make (value : Option Datum) (labels : Option LabelArgument) (timestamp : Option Datum) :
    Except Error Exemplar :=
  match value, labels.getD (.labels .empty) with
  | none, _ => .error (.argument (.missingFields "Exemplar" ["value"]))
  | some _, .datum _ => .error (.point .exemplarLabels)
  | some value, .labels labels => do
    let timestamp ← Amount.ofTimestamp .exemplar (timestamp.getD (.whole 0))
    return ⟨value, labels, timestamp⟩

def hasTimestamp (e : Exemplar) : Bool :=
  e.timestamp.isPresent

def eq (a b : Exemplar) : Bool :=
  a.value.eq b.value && a.labels == b.labels && a.timestamp.number.eq b.timestamp.number

/-- The form in which records show an exemplar. -/
def display (e : Exemplar) : Display :=
  .record "Exemplar" [
    ("value", e.value.display),
    ("labels", e.labels.display),
    ("timestamp_millis", e.timestamp.display)]

/-- The form of an exemplar that may be missing. -/
def displayOption (e : Option Exemplar) : Display :=
  match e with
  | some e => e.display
  | none => Datum.null.display

/-- Equality by value of exemplars that may be missing. -/
def eqOption : Option Exemplar → Option Exemplar → Bool
  | none, none => true
  | some a, some b => a.eq b
  | _, _ => false

/-- Equality by value of lists of exemplars that may be missing. -/
def eqList : List (Option Exemplar) → List (Option Exemplar) → Bool
  | [], [] => true
  | a :: as, b :: bs => eqOption a b && eqList as bs
  | _, _ => false

end Exemplar

end Telemetry
