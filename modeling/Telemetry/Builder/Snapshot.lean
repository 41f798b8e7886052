import Telemetry.Builder.Basic
import Telemetry.Snapshot

/-!
# Builders of snapshots

A builder of snapshots gathers a name, a help text, a unit and points of one metric of a known kind. A unit
is refused at once if the kind forbids units; all else is checked when the snapshot is made.

## Main definitions

* `SnapshotDraft`: what a builder of snapshots has gathered
* `SnapshotBuilder`: the builder
* `SnapshotCall`: the calls that gather
* `BuilderClass.snapshots`: the class of these builders
* `SnapshotBuilder.name`, `SnapshotBuilder.help`, `SnapshotBuilder.unit`, `SnapshotBuilder.point`,
  `SnapshotBuilder.set`: the calls one by one
* `SnapshotBuilder.build`: the snapshot

## Main results

* `SnapshotBuilder.call_eq`, `SnapshotBuilder.build_eq_attempt`: the calls and the attempt are those of the class
-/

namespace Telemetry

/-- **What a builder of snapshots has gathered.** -/
structure SnapshotDraft where
  name : Datum
  help : Option String
  unit : UnitArgument
  points : List PointArgument

namespace SnapshotDraft

def empty : SnapshotDraft :=
  ⟨.null, none, .datum .null, []⟩

/-- A draft with a unit, if units are allowed. The kind that forbids them is called by its title. -/
def setUnit (allowsUnit : Bool) (title : String) (unit : UnitArgument) (draft : SnapshotDraft) :
    Except Error SnapshotDraft :=
  if allowsUnit then .ok { draft with unit := unit }
  else .error (.snapshot (.unitForbidden title))

/-- **What a draft gives to a factory.** -/
def arguments (draft : SnapshotDraft) : Except Error (Metadata × List PointArgument) := do
  let metadata ← Metadata.make draft.name draft.help draft.unit
  return (metadata, draft.points)

/-- **The snapshot of a draft.** -/
def make (kind : Kind) (draft : SnapshotDraft) : Except Error Snapshot := do
  let (metadata, points) ← draft.arguments
  Snapshot.make (.text kind.word) (some metadata) (some points)

end SnapshotDraft

/-- **A call that gathers.** -/
inductive SnapshotCall where
  | name (name : Datum)
  | help (help : Option String)
  | unit (unit : UnitArgument)
  | point (point : PointArgument)
  | set (names : List String)

/-- The names of the fields that a call sets by name. -/
def SnapshotCall.names : SnapshotCall → List String
  | .set names => names
  | _ => []

/-- **What a call makes of a draft.** Fields that are set by name have no part in the snapshot. -/
def SnapshotDraft.change (allowsUnit : Bool) (title : String) :
    SnapshotCall → SnapshotDraft → Except Error SnapshotDraft
  | .name name, draft => .ok { draft with name := name }
  | .help help, draft => .ok { draft with help := help }
  | .unit unit, draft => draft.setUnit allowsUnit title unit
  | .point point, draft => .ok { draft with points := draft.points ++ [point] }
  | .set _, draft => .ok draft

/-- **The class of builders of snapshots** of a kind with a title, which allows units or not. -/
def BuilderClass.snapshots (allowsUnit : Bool) (title : String) :
    BuilderClass SnapshotDraft SnapshotCall (Metadata × List PointArgument) where
  owner := "Builder"
  names := SnapshotCall.names
  change := SnapshotDraft.change allowsUnit title
  arguments := SnapshotDraft.arguments

/-- **A builder of snapshots.** -/
abbrev SnapshotBuilder : Type :=
  Builder SnapshotDraft

namespace SnapshotBuilder

def new : SnapshotBuilder :=
  Builder.new "snapshot" .empty

/-- **The name.** -/
def name (b : SnapshotBuilder) (name : Datum) : Except Error SnapshotBuilder :=
  b.change fun draft => .ok { draft with name := name }

/-- **The help text.** -/
def help (b : SnapshotBuilder) (help : Option String) : Except Error SnapshotBuilder :=
  b.change fun draft => .ok { draft with help := help }

/-- **The unit**, if the kind has any. -/
def unit (kind : Kind) (b : SnapshotBuilder) (unit : UnitArgument) : Except Error SnapshotBuilder :=
  b.change (SnapshotDraft.setUnit kind.allowsUnit kind.title unit)

/-- **One more point.** -/
def point (b : SnapshotBuilder) (point : PointArgument) : Except Error SnapshotBuilder :=
  b.change fun draft => .ok { draft with points := draft.points ++ [point] }

/-- Fields that are set by name have no part in the snapshot. -/
def set (b : SnapshotBuilder) (names : List String) : Except Error SnapshotBuilder := do
  Builder.checkFields "Builder" names
  b.change .ok

/-- **A call.** -/
def call (kind : Kind) (b : SnapshotBuilder) : SnapshotCall → Except Error SnapshotBuilder
  | .name name => b.name name
  | .help help => b.help help
  | .unit unit => b.unit kind unit
  | .point point => b.point point
  | .set names => b.set names

/-- **The attempt to make the snapshot.** -/
def build (kind : Kind) (b : SnapshotBuilder) : Except Error Snapshot × SnapshotBuilder :=
  Builder.build (SnapshotDraft.make kind) b

theorem call_eq (kind : Kind) (b : SnapshotBuilder) (call : SnapshotCall) :
    b.call kind call = (BuilderClass.snapshots kind.allowsUnit kind.title).call b call := by
  rw [BuilderClass.call_eq]
  cases call <;> rfl

theorem build_eq_attempt (kind : Kind) (b : SnapshotBuilder) :
    b.build kind = Id.run ((BuilderClass.snapshots kind.allowsUnit kind.title).attempt
      (fun given => pure (Snapshot.make (.text kind.word) (some given.1) (some given.2))) b) :=
  (BuilderClass.attempt_pure (BuilderClass.snapshots kind.allowsUnit kind.title) _ b).symm

end SnapshotBuilder

end Telemetry
