/-!
# Reports of failures

A report is a failure in words: its category, a message and what the message is about. Categories form a
tree below that of the snapshot model; failures of the model show their context behind the message.

## Main definitions

* `Category`: the sorts of failure
* `Category.parent?`, `Category.lineage`: the tree of the snapshot model's categories
* `Report`: category, message and context
* `Report.text`: the whole text
-/

namespace Telemetry

/-- **The sorts of failure.** The first six belong to the snapshot model; the others say what was wrong
with an argument, a look-up or the surroundings. -/
inductive Category where
  | model
  | invalid
  | duplicateSeries
  | incompatible
  | labelConflict
  | builderReuse
  | wrongType
  | wrongValue
  | missingAttribute
  | missingKey
  | outOfRange
  | missingFile
  | failure
  | settings
  deriving DecidableEq

namespace Category

/-- The category above one of the snapshot model. -/
def parent? : Category → Option Category
  | .invalid | .incompatible | .builderReuse => some .model
  | .duplicateSeries => some .invalid
  | .labelConflict => some .incompatible
  | .model => some .wrongValue
  | _ => none

/-- The categories from one up to the top of its tree. -/
def lineage (c : Category) : List Category :=
  c :: match c.parent? with
    | none => []
    | some p => p :: match p.parent? with
      | none => []
      | some q => q :: match q.parent? with
        | none => []
        | some r => [r]

end Category

/-- **A failure in words.** The context names what the message is about. -/
structure Report where
  category : Category
  message : String
  context : List (String × String)
  deriving DecidableEq

namespace Report

def plain (category : Category) (message : String) : Report :=
  ⟨category, message, []⟩

/-- **The whole text**: the message, and the context in brackets if there is any. -/
def text (r : Report) : String :=
  if r.context.isEmpty then r.message
  else r.message ++ " (" ++ "; ".intercalate (r.context.map fun item => item.1 ++ "=" ++ item.2) ++ ")"

/-- Two points of a metric have the same labels. -/
def duplicateSeries (metric labels : String) : Report :=
  ⟨.duplicateSeries, "Duplicate labels for metric '" ++ metric ++ "': " ++ labels, [("metric", metric)]⟩

/-- Two label sets give a name different values. -/
def labelConflict (name value otherValue : String) : Report :=
  ⟨.labelConflict,
    "Label '" ++ name ++ "' has conflicting values: '" ++ value ++ "' vs '" ++ otherValue ++ "'",
    [("label", name)]⟩

end Report

end Telemetry
