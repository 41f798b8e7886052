import Telemetry.Datum
import Telemetry.Error

/-!
# Arguments

What operations ask of data whose sort has not been checked, and how they refuse what cannot give it.

## Main definitions

* `Datum.iterate`: the items of a datum
* `Datum.lead`: the text that a datum puts in front of another
* `Datum.checkKey`, `Datum.dictionary`: data that can be keys, and dictionaries of unchecked entries
-/

namespace Telemetry.Datum

/-- **The items of a datum.** Nothing and numbers have none. -/
def iterate (d : Datum) : Except Error (List Datum) :=
  match d.items? with
  | some items => .ok items
  | none => .error (.argument (.notIterable d.typeName))

/-- **The text that a datum puts in front of another text.** Only texts can stand there. -/
def lead : Datum → Except Error String
  | .text s => .ok s
  | .list items => .error (.argument (.notJoined (Datum.list items).typeName "str"))
  | .bytes octets => .error (.argument (.notAppended (Datum.bytes octets).typeName "str"))
  | d => .error (.argument (.unsupportedOperands "+" d.typeName "str"))

/-- **Data that can be keys.** Lists and dictionaries cannot. -/
def checkKey : Datum → Except Error Unit
  | .list items => .error (.argument (.unhashable (Datum.list items).typeName))
  | .dict entries => .error (.argument (.unhashable (Datum.dict entries).typeName))
  | _ => .ok ()

/-- **A dictionary from its entries**, whose keys have to be able to be keys. -/
def dictionary (entries : List (Datum × Datum)) : Except Error (List (Datum × Datum)) := do
  entries.forM fun entry => entry.1.checkKey
  return ofEntries entries

end Telemetry.Datum
