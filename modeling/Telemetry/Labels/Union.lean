import Telemetry.Labels.Basic

/-!
# Extending and uniting label sets

## Main definitions

* `Labels.add`: a label set with one more label
* `Labels.conflict?`: what keeps two label sets from being united
* `Labels.merge`: the union of two label sets
-/

namespace Telemetry.Labels

/-- **One more label.** The name must not be in the set yet. -/
def add (l : Labels) (name value : Datum) : Except Error Labels :=
  if l.names.any fun known => name.eq (.text known) then
    .error (.label (.existing name.shown))
  else
    ofPairs ((l.names.map .text) ++ [name]) ((l.values.map .text) ++ [value])

def findExposed (l : Labels) (exposedName : String) : Option Label :=
  l.labels.find? (·.exposedName == exposedName)

/-- What keeps a label from joining a set: another name that is exposed alike, or another value. -/
def labelConflict? (l : Labels) (label : Label) : Option LabelError :=
  match l.findExposed label.exposedName with
  | none => none
  | some known =>
    if known.name ≠ label.name then some (.collision known.name label.name label.exposedName)
    else if known.value ≠ label.value then some (.conflict label.name known.value label.value)
    else none

/-- **What keeps two label sets from being united**, at the first label of the second that cannot
join. -/
def conflict? (a b : Labels) : Option LabelError :=
  b.labels.findSome? a.labelConflict?

/-- **The union of two label sets.** Labels that both have appear once. -/
def merge (a b : Labels) : Except Error Labels :=
  match conflict? a b with
  | some e => .error (.label e)
  | none =>
    ofLabels (a.labels ++ b.labels.filter fun label => (a.findExposed label.exposedName).isNone)

/-- Nothing is gained from the empty label set. -/
theorem merge_empty_right (a : Labels) : merge a empty = .ok a := by
  have : merge a empty = ofLabels (a.labels ++ []) := rfl
  rw [this, List.append_nil, ofLabels_labels]

theorem merge_empty_left (b : Labels) : merge empty b = .ok b := by
  have hconflict : conflict? empty b = none := by
    simp [conflict?, labelConflict?, findExposed, empty]
  have hall : b.labels.filter (fun label => (empty.findExposed label.exposedName).isNone) = b.labels :=
    List.filter_eq_self.2 fun _ _ => rfl
  have hmerge : merge empty b = ofLabels ([] ++ b.labels) := by
    simp only [merge, hconflict, hall]
    rfl
  rw [hmerge, List.nil_append, ofLabels_labels]

end Telemetry.Labels
