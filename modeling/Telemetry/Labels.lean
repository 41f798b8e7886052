import Telemetry.Labels.Order
import Telemetry.Labels.Union

/-!
# Label sets as arguments

Where a label set is asked for, a caller may hand over something else: nothing, a dictionary, or any other
datum. Each operation says what it makes of that.

## Main definitions

* `LabelArgument`: what is handed over for a label set
* `LabelArgument.resolve`: the label set that an argument stands for where dictionaries are welcome
* `LabelArgument.labelSet`: the label set that an argument is
* `LabelArgument.mergeInto`, `LabelArgument.compareTo`: union and comparison with an argument
* `LabelArgument.sort`: arguments in order
* `LabelArgument.eq`, `LabelArgument.display`: equality by value, and the form in records
-/

namespace Telemetry

/-- **What is handed over for a label set.** -/
inductive LabelArgument where
  | labels (l : Labels)
  | datum (d : Datum)

namespace LabelArgument

def typeName : LabelArgument → String
  | .labels _ => "Labels"
  | .datum d => d.typeName

/-- **The label set that an argument stands for** where dictionaries are welcome. -/
def resolve : LabelArgument → Except Error Labels
  | .labels l => .ok l
  | .datum d => Labels.ofDatum d

/-- **The label set that an argument is** where nothing else is welcome. -/
def labelSet : LabelArgument → Except Error Labels
  | .labels l => .ok l
  | .datum d => .error (.argument (.noAttribute d.typeName "names"))

/-- What an argument is by its datum, if it is no label set. -/
def datum? : LabelArgument → Option Datum
  | .labels _ => none
  | .datum d => some d

/-- The union of a label set with an argument. What counts as false adds nothing, and a datum replaces the
empty label set as it is. -/
def mergeInto (l : Labels) : LabelArgument → Except Error LabelArgument
  | .labels other => (l.merge other).map .labels
  | .datum d =>
    if !d.isTruthy then .ok (.labels l)
    else if l.isEmpty then .ok (.datum d)
    else .error (.argument (.noAttribute d.typeName "prometheus_names"))

/-- Whether a label set comes before an argument. -/
def compareTo (l : Labels) : LabelArgument → Except Error Bool
  | .labels other => .ok (l.lt other)
  | .datum d => .error (.argument (.notOrdered "Labels" d.typeName))

/-- The first two neighbours of which one is no label set. -/
def firstMixed? : List LabelArgument → Option (LabelArgument × LabelArgument)
  | .labels _ :: .labels b :: rest => firstMixed? (.labels b :: rest)
  | a :: b :: _ => some (a, b)
  | _ => none

/-- **Arguments in order.** Each is compared with the one in front of it first, which has to be possible. -/
def sort (arguments : List LabelArgument) : Except Error (List Labels) :=
  match firstMixed? arguments with
  | some (a, b) => .error (.argument (.notOrdered b.typeName a.typeName))
  | none => (arguments.mapM labelSet).map Labels.sort

/-- Whether a label set has the exposed names of an argument. -/
def sameNames (l : Labels) : LabelArgument → Except Error Bool
  | .labels other => .ok (l.sameNames other)
  | .datum d => .error (.argument (.noAttribute d.typeName "prometheus_names"))

def eq : LabelArgument → LabelArgument → Bool
  | .labels a, .labels b => a == b
  | .datum a, .datum b => a.eq b
  | _, _ => false

/-- The form in which records show an argument. -/
def display : LabelArgument → Display
  | .labels l => l.display
  | .datum d => d.display

/-- The form in which messages show an argument. -/
def shown : LabelArgument → String
  | .labels l => l.shown
  | .datum d => d.shown

end LabelArgument

end Telemetry
