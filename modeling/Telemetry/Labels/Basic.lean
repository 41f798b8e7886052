import Telemetry.Arrangement
import Telemetry.Naming

/-!
# Label sets

A label set maps label names to values. It is kept in the order of the exposed names, which are pairwise
distinct, so equal sets are equal lists.

## Main definitions

* `Label`: a name and a value
* `Labels`: label sets
* `Labels.ofLabels`, `Labels.ofPairs`, `Labels.ofFlat`, `Labels.ofDatum`: label sets from labels, from
  names and values, from an alternating list, and from a dictionary
* `Labels.get?`, `Labels.contains`: look-up
* `Labels.shown`, `Labels.display`: the forms in which messages and records show a label set

## Main results

* `Labels.pairwise_exposedName`: no two labels of a set are exposed alike
* `Labels.ofLabels_labels`: a label set is made again from its labels
-/

namespace Telemetry

open Naming (exposed)

/-- **A label**: a name and its value. -/
structure Label where
  name : String
  value : String
  deriving DecidableEq

namespace Label

def exposedName (l : Label) : String :=
  exposed l.name

/-- Labels are ordered by their exposed names. -/
def order : Label → Label → Ordering :=
  compareOn exposedName

instance : Std.TransCmp order :=
  inferInstanceAs (Std.TransCmp (compareOn exposedName))

theorem order_eq_iff {a b : Label} : order a b = .eq ↔ a.exposedName = b.exposedName :=
  show compare a.exposedName b.exposedName = .eq ↔ a.exposedName = b.exposedName from
    Std.LawfulEqCmp.compare_eq_iff_eq

end Label

/-- **A label set**: labels with legal names, in the order of their exposed names, which are pairwise
distinct. -/
@[ext]
structure Labels where
  labels : List Label
  legal : ∀ l ∈ labels, LabelName.problem? l.name = none
  increasing : Increasing Label.order labels
  deriving DecidableEq

namespace Labels

def empty : Labels :=
  ⟨[], by simp, increasing_nil⟩

instance : Inhabited Labels := ⟨empty⟩

/-- The exposed names of a label set are pairwise distinct. -/
theorem pairwise_exposedName (l : Labels) :
    l.labels.Pairwise fun a b => a.exposedName ≠ b.exposedName := by
  refine l.increasing.imp fun {a b} hlt heq => ?_
  rw [Label.order_eq_iff.2 heq] at hlt
  cases hlt

/-! ## Construction -/

def illegal? (labels : List Label) : Option LabelError :=
  labels.findSome? fun l => (LabelName.problem? l.name).map (.illegalName l.name)

theorem illegal?_eq_none_iff {labels : List Label} :
    illegal? labels = none ↔ ∀ l ∈ labels, LabelName.problem? l.name = none := by
  simp [illegal?, List.findSome?_eq_none_iff]

/-- **The label set of a list of labels**, in any order. Names must be legal and their exposed names
pairwise distinct. -/
def ofLabels (labels : List Label) : Except Error Labels :=
  match hlegal : illegal? labels with
  | some e => .error (.label e)
  | none =>
    match htie : firstTie? Label.order (arrange Label.order labels) with
    | some (first, second) =>
      .error (.label (.duplicate first.exposedName first.name second.name))
    | none =>
      .ok ⟨arrange Label.order labels,
        fun l hl => illegal?_eq_none_iff.1 hlegal l (mem_arrange.1 hl), increasing_arrange htie⟩

/-- A label from a name and a value. The name is looked at first. -/
def checkLabel (name value : Datum) : Except Error Label :=
  match name with
  | .null => .error (.label .missingName)
  | name =>
    match Naming.problem? .label name, name, value with
    | some problem, _, _ => .error (.label (.illegalName name.shown problem))
    | none, .text name, .text value => .ok ⟨name, value⟩
    | none, name, .null => .error (.label (.missingValue name.shown))
    | none, name, value => .error (.label (.valueNotText name.shown value.typeName))

/-- Labels from names and values of the same number. -/
def checkLabels : List Datum → List Datum → Except Error (List Label)
  | name :: names, value :: values => do
    let label ← checkLabel name value
    let labels ← checkLabels names values
    return label :: labels
  | _, _ => .ok []

/-- **The label set of names and values**, which may be of any sort. -/
def ofPairs (names values : List Datum) : Except Error Labels :=
  if names.length = values.length then checkLabels names values >>= ofLabels
  else .error (.label (.lengths names.length values.length))

/-- The names in an alternating list of names and values. -/
def alternateNames : List α → List α
  | name :: _ :: rest => name :: alternateNames rest
  | rest => rest

/-- The values in an alternating list of names and values. -/
def alternateValues : List α → List α
  | _ :: value :: rest => value :: alternateValues rest
  | _ => []

/-- **The label set of an alternating list** of names and values. -/
def ofFlat (items : List Datum) : Except Error Labels :=
  if items.length % 2 = 0 then ofPairs (alternateNames items) (alternateValues items)
  else .error (.label (.oddCount items.length))

/-- **The label set of a dictionary.** What counts as false stands for the empty label set. -/
def ofDatum (d : Datum) : Except Error Labels :=
  if !d.isTruthy then .ok empty
  else match d with
    | .dict entries => ofPairs (entries.map (·.1)) (entries.map (·.2))
    | d => .error (.argument (.noAttribute d.typeName "keys"))

/-- A label set is made again from its labels. -/
theorem ofLabels_labels (l : Labels) : ofLabels l.labels = .ok l := by
  unfold ofLabels
  split
  · next e he =>
    rw [illegal?_eq_none_iff.2 l.legal] at he
    exact absurd he (by simp)
  · split
    · next first second htie =>
      rw [l.increasing.arrange_eq, l.increasing.firstTie?_eq_none] at htie
      exact absurd htie (by simp)
    · congr 1
      exact Labels.ext l.increasing.arrange_eq

/-! ## Look-up -/

def size (l : Labels) : Nat :=
  l.labels.length

def isEmpty (l : Labels) : Bool :=
  l.labels.isEmpty

def names (l : Labels) : List String :=
  l.labels.map (·.name)

/-- The values, in the order of their names. -/
def values (l : Labels) : List String :=
  l.labels.map (·.value)

def exposedNames (l : Labels) : List String :=
  l.labels.map Label.exposedName

/-- The label set as an association list of names and values. -/
def toList (l : Labels) : List (String × String) :=
  l.labels.map fun label => (label.name, label.value)

def toExposedList (l : Labels) : List (String × String) :=
  l.labels.map fun label => (label.exposedName, label.value)

/-- **The value of a name.** -/
def get? (l : Labels) (name : String) : Option String :=
  (l.labels.find? (·.name == name)).map (·.value)

def contains (l : Labels) (name : String) : Bool :=
  l.names.contains name

/-- Whether two label sets have the same exposed names. -/
def sameNames (a b : Labels) : Bool :=
  a.exposedNames == b.exposedNames

/-! ## Written forms -/

/-- The form in which messages show a label set. -/
def shown (l : Labels) : String :=
  "\x7b" ++ ", ".intercalate (l.labels.map fun label => label.name ++ "=\"" ++ label.value ++ "\"") ++
    "\x7d"

/-- The form in which records show a label set: names and values. -/
def display (l : Labels) : Display :=
  .record "Labels" [
    ("names", .tuple (l.names.map .ofString)),
    ("values", .tuple (l.values.map .ofString))]

end Labels

end Telemetry
