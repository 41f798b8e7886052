import Telemetry.Display
import Telemetry.Number

/-!
# Loose data

A datum is a value whose sort has not been checked: what a caller hands over before validation, what a
gauge was set to, or a part of a settings document.

## Main definitions

* `Datum`: nothing, a number, a text, bytes, a list or a dictionary
* `Datum.typeName`: the name of its sort
* `Datum.display`, `Datum.written`, `Datum.shown`: its written form, and the form in which messages show
  it, where a text stands for itself
* `Datum.isTruthy`: whether it counts as true
* `Datum.eq`: equality by value
* `Datum.ofEntries`: a dictionary from its entries
* `Datum.items?`, `Datum.lookup`: the parts of a datum
-/

namespace Telemetry

/-- **A value of unchecked sort.** -/
inductive Datum where
  | null
  | number (n : Number)
  | text (s : String)
  | bytes (octets : List UInt8)
  | list (items : List Datum)
  | dict (entries : List (Datum × Datum))

namespace Datum

instance : Inhabited Datum := ⟨null⟩

def whole (n : Int) : Datum := .number (.whole n)

def truth (b : Bool) : Datum := .number (.truth b)

/-- **The name of the sort of a datum.** -/
def typeName : Datum → String
  | .null => "NoneType"
  | .number (.whole _) => "int"
  | .number (.real _) => "float"
  | .number (.truth _) => "bool"
  | .text _ => "str"
  | .bytes _ => "bytes"
  | .list _ => "list"
  | .dict _ => "dict"

mutual

/-- The structure of the written form of a datum. -/
def display : Datum → Display
  | .null => .word ['N', 'o', 'n', 'e']
  | .number n => .word n.chars
  | .text s => .ofString s
  | .bytes octets => .octets octets
  | .list items => .list (displayItems items)
  | .dict entries => .dict (displayEntries entries)

/-- The written forms of the items of a list. -/
def displayItems : List Datum → List Display
  | [] => []
  | item :: rest => item.display :: displayItems rest

/-- The written forms of the entries of a dictionary. -/
def displayEntries : List (Datum × Datum) → List (Display × Display)
  | [] => []
  | (key, value) :: rest => (key.display, value.display) :: displayEntries rest

end

/-- The written form, in which a text is quoted. -/
def written (d : Datum) : String :=
  d.display.render

/-- The form in which messages show a datum: a text as it is, all else as written. -/
def shown : Datum → String
  | .text s => s
  | d => d.written

/-- Whether a datum counts as true: nothing, zeros and everything empty do not. -/
def isTruthy : Datum → Bool
  | .null => false
  | .number n => n.isTruthy
  | .text s => !s.isEmpty
  | .bytes octets => !octets.isEmpty
  | .list items => !items.isEmpty
  | .dict entries => !entries.isEmpty

mutual

/-- **Equality by value.** Numbers of different sorts can be equal, and the order of the entries of a
dictionary does not count. -/
def eq : Datum → Datum → Bool
  | .null, .null => true
  | .number m, .number n => m.eq n
  | .text s, .text t => s == t
  | .bytes a, .bytes b => a == b
  | .list a, .list b => eqItems a b
  | .dict a, .dict b => a.length == b.length && eqEntries a b
  | _, _ => false

def eqItems : List Datum → List Datum → Bool
  | [], [] => true
  | a :: as, b :: bs => a.eq b && eqItems as bs
  | _, _ => false

/-- Whether each entry of the first dictionary has an equal one in the second. -/
def eqEntries : List (Datum × Datum) → List (Datum × Datum) → Bool
  | [], _ => true
  | (key, value) :: rest, entries =>
    entries.any (fun other => key.eq other.1 && value.eq other.2) && eqEntries rest entries

end

/-- Whether a datum equals itself, which numbers without a place do not. -/
def equalsItself : Datum → Bool
  | .number n => !n.isNaN
  | _ => true

/-- Entries with the value of one key replaced, or with the key added at the end. -/
def insertEntry {α : Type} (entries : List (Datum × α)) (key : Datum) (value : α) : List (Datum × α) :=
  if entries.any (·.1.eq key) then
    entries.map fun entry => if entry.1.eq key then (entry.1, value) else entry
  else
    entries ++ [(key, value)]

/-- **A dictionary from its entries.** A repeated key keeps its first place and takes the last value. -/
def ofEntries (entries : List (Datum × Datum)) : List (Datum × Datum) :=
  entries.foldl (fun known entry => insertEntry known entry.1 entry.2) []

/-- **The items of a datum**: those of a list, the characters of a text, the octets of bytes, or the keys
of a dictionary. -/
def items? : Datum → Option (List Datum)
  | .list items => some items
  | .text s => some (s.toList.map fun c => .text (String.singleton c))
  | .bytes octets => some (octets.map fun octet => .whole octet.toNat)
  | .dict entries => some (entries.map (·.1))
  | _ => none

def lookup {α : Type} (entries : List (Datum × α)) (key : String) : Option α :=
  (entries.find? (·.1.eq (.text key))).map (·.2)

end Datum

end Telemetry
