import Telemetry.Builder.Basic
import Telemetry.Kind

/-!
# Builders of points

A builder of points gathers fields, a label set and single labels. Fields that the class of points does not
have are refused at once; all else is checked when the point is made.

## Main definitions

* `PointDraft`: what a builder of points has gathered
* `PointTarget`: what is made of fields
* `PointBuilder`: the builder
* `PointCall`: the calls that gather
* `BuilderClass.points`: the class of these builders
* `PointBuilder.set`, `PointBuilder.labels`, `PointBuilder.label`, `PointBuilder.created`,
  `PointBuilder.scrape`: the calls one by one
* `PointBuilder.build`: the point

## Main results

* `PointBuilder.call_eq`, `PointBuilder.build_eq_attempt`: the calls and the attempt are those of the class
-/

namespace Telemetry

/-- **What a builder of points has gathered**: fields, a label set, and single labels that are added to
it. -/
structure PointDraft where
  fields : List Field
  labels : Labels
  extra : List (Datum × Datum)

/-- **What is made of fields.** -/
structure PointTarget (β : Type) where
  title : String
  accepts : String → Bool
  make : List Field → Except Error β

namespace PointTarget

def ofClass (c : PointClass) : PointTarget DataPoint where
  title := c.title
  accepts := c.accepts
  make := DataPoint.make c

/-- The fields themselves, in the order of their names. -/
def fields : PointTarget (List Field) where
  title := "fields"
  accepts _ := true
  make fields := .ok (fields.mergeSort fun a b => a.name ≤ b.name)

/-- What is wrong with the first field that a target does not have. -/
def unknownField? (t : PointTarget β) (names : List String) : Option BuilderError :=
  (names.find? fun name => !t.accepts name).map (.unknownField t.title)

end PointTarget

/-- **A builder of points.** -/
abbrev PointBuilder : Type :=
  Builder PointDraft

/-- **A call that gathers.** -/
inductive PointCall where
  | set (fields : List Field)
  | labels (l : LabelArgument)
  | label (name value : Datum)
  | created (millis : Datum)
  | scrape (millis : Datum)

namespace PointDraft

def empty : PointDraft :=
  ⟨[], .empty, []⟩

/-- A draft with more fields, if the target has them. -/
def setFields (t : PointTarget β) (more : List Field) (draft : PointDraft) : Except Error PointDraft :=
  match t.unknownField? (more.map Field.name) with
  | some e => .error (.builder e)
  | none => .ok { draft with fields := Field.insertAll draft.fields more }

def setLabels (labels : LabelArgument) (draft : PointDraft) : Except Error PointDraft := do
  let labels ← labels.resolve
  return { draft with labels := labels }

def addLabel (name value : Datum) (draft : PointDraft) : Except Error PointDraft :=
  .ok { draft with extra := draft.extra ++ [(name, value)] }

/-- **What a call makes of a draft.** -/
def change (t : PointTarget β) : PointCall → PointDraft → Except Error PointDraft
  | .set fields => setFields t fields
  | .labels l => setLabels l
  | .label name value => addLabel name value
  | .created millis => setFields t [.created millis]
  | .scrape millis => setFields t [.scrape millis]

/-- The label set of a draft, with the single labels added. -/
def allLabels (draft : PointDraft) : Except Error Labels :=
  if draft.extra.isEmpty then .ok draft.labels
  else do
    let extra ← Labels.ofPairs (draft.extra.map (·.1)) (draft.extra.map (·.2))
    draft.labels.merge extra

/-- **What a draft gives to a target.** The gathered labels take the place of a field for them. -/
def arguments (draft : PointDraft) : Except Error (List Field) := do
  let labels ← draft.allLabels
  return Field.insert draft.fields (.labels (.labels labels))

/-- **What is made of a draft.** -/
def make (t : PointTarget β) (draft : PointDraft) : Except Error β :=
  draft.arguments >>= t.make

end PointDraft

/-- The names of the fields that a call sets by name. -/
def PointCall.names : PointCall → List String
  | .set fields => fields.map Field.name
  | _ => []

/-- **The class of builders of points** for a target. -/
def BuilderClass.points (t : PointTarget β) : BuilderClass PointDraft PointCall (List Field) where
  owner := "DataPointBuilder"
  names := PointCall.names
  change := PointDraft.change t
  arguments := PointDraft.arguments

namespace PointBuilder

def new (t : PointTarget β) : PointBuilder :=
  Builder.new t.title .empty

/-- **More fields.** -/
def set (t : PointTarget β) (b : PointBuilder) (fields : List Field) : Except Error PointBuilder := do
  Builder.checkFields "DataPointBuilder" (fields.map Field.name)
  b.change (PointDraft.setFields t fields)

/-- **The label set**, which replaces the one before. -/
def labels (b : PointBuilder) (labels : LabelArgument) : Except Error PointBuilder :=
  b.change (PointDraft.setLabels labels)

/-- **One more label**, which is checked when the point is made. -/
def label (b : PointBuilder) (name value : Datum) : Except Error PointBuilder :=
  b.change (PointDraft.addLabel name value)

def created (t : PointTarget β) (b : PointBuilder) (millis : Datum) : Except Error PointBuilder :=
  b.change (PointDraft.setFields t [.created millis])

def scrape (t : PointTarget β) (b : PointBuilder) (millis : Datum) : Except Error PointBuilder :=
  b.change (PointDraft.setFields t [.scrape millis])

/-- **A call.** -/
def call (t : PointTarget β) (b : PointBuilder) : PointCall → Except Error PointBuilder
  | .set fields => b.set t fields
  | .labels l => b.labels l
  | .label name value => b.label name value
  | .created millis => b.created t millis
  | .scrape millis => b.scrape t millis

/-- **The attempt to make the point.** -/
def build (t : PointTarget β) (b : PointBuilder) : Except Error β × PointBuilder :=
  Builder.build (PointDraft.make t) b

theorem call_eq (t : PointTarget β) (b : PointBuilder) (call : PointCall) :
    b.call t call = (BuilderClass.points t).call b call := by
  rw [BuilderClass.call_eq]
  cases call <;> rfl

theorem build_eq_attempt (t : PointTarget β) (b : PointBuilder) :
    b.build t = Id.run ((BuilderClass.points t).attempt (fun fields => pure (t.make fields)) b) :=
  (BuilderClass.attempt_pure (BuilderClass.points t) t.make b).symm

end PointBuilder

end Telemetry
