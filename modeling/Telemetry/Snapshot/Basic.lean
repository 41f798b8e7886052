import Telemetry.Kind
import Telemetry.Metadata
import Telemetry.Settling

/-!
# Snapshots

A snapshot is one metric at one time: its kind, its metadata and its points, all of the class of the kind and
none behind a neighbour that it comes before.

## Main definitions

* `Snapshot`: one metric at one time
* `Snapshot.sorted`, `Snapshot.ofPoints`, `Snapshot.make`: snapshots from points in any order
* `Snapshot.eq`: equality by value

## Main results

* `Snapshot.ofPoints_points`: a snapshot is made again from its parts
* `Snapshot.pairwise_order`: points whose timestamps are numbers are in order
* `Snapshot.pairwise_labels`: whatever their timestamps, points are in the order of their labels
-/

namespace Telemetry

/-- **One metric at one time.** -/
@[ext]
structure Snapshot where
  kind : Kind
  metadata : Metadata
  points : List DataPoint
  unitAllowed : metadata.hasUnit = true → kind.allowsUnit = true
  classed : ∀ p ∈ points, p.pointClass = kind.pointClass
  ordered : Chained (Follows DataPoint.precedes) points

/-- What is handed over for a point. -/
inductive PointArgument where
  | point (p : DataPoint)
  | datum (d : Datum)

namespace PointArgument

def typeName : PointArgument → String
  | .point p => p.pointClass.title
  | .datum d => d.typeName

/-- Whether an argument is a point of a class. -/
def isOf (c : PointClass) : PointArgument → Bool
  | .point p => p.pointClass == c
  | .datum _ => false

def point? : PointArgument → Option DataPoint
  | .point p => some p
  | .datum _ => none

end PointArgument

namespace Snapshot

def name (s : Snapshot) : String :=
  s.metadata.name

def exposedName (s : Snapshot) : String :=
  s.metadata.exposedName

/-- **The snapshot with the given points**, which are settled. -/
def sorted (kind : Kind) (metadata : Metadata) (points : List DataPoint)
    (unitAllowed : metadata.hasUnit = true → kind.allowsUnit = true)
    (classed : ∀ p ∈ points, p.pointClass = kind.pointClass) : Snapshot where
  kind := kind
  metadata := metadata
  points := settle DataPoint.precedes points
  unitAllowed := unitAllowed
  classed p hp := classed p (mem_settle.1 hp)
  ordered := chained_settle DataPoint.precedes_asymm points

/-- **A snapshot from points**, unless its kind forbids the unit or a point is of another class. -/
def ofPoints (kind : Kind) (metadata : Metadata) (points : List DataPoint) : Except Error Snapshot :=
  if hunit : metadata.hasUnit = true → kind.allowsUnit = true then
    match hclass : points.find? fun p => p.pointClass != kind.pointClass with
    | some p =>
      .error (.snapshot (.wrongPoint kind.word metadata.name p.pointClass.title kind.pointClass.title))
    | none =>
      .ok (sorted kind metadata points hunit fun p hp => by
        simpa using List.find?_eq_none.1 hclass p hp)
  else
    .error (.snapshot (.unitForbidden kind.title))

/-- **A snapshot from unchecked parts.** -/
def make (kind : Datum) (metadata : Option Metadata) (points : Option (List PointArgument)) :
    Except Error Snapshot :=
  match Kind.ofDatum? kind, metadata, points with
  | none, _, _ => .error (.snapshot (.unknownKind kind.shown))
  | some _, none, _ => .error (.snapshot .missingMetadata)
  | some _, some _, none => .error (.snapshot .missingPoints)
  | some kind, some metadata, some points =>
    match metadata.hasUnit && !kind.allowsUnit, points.find? fun p => !p.isOf kind.pointClass with
    | false, some p =>
      .error (.snapshot (.wrongPoint kind.word metadata.name p.typeName kind.pointClass.title))
    | _, _ => ofPoints kind metadata (points.filterMap PointArgument.point?)

/-- A snapshot of a kind, whose points have to be there before anything is checked. -/
def makeOf (kind : Kind) (metadata : Option Metadata) (points : Option (List PointArgument)) :
    Except Error Snapshot :=
  match points with
  | none => .error (.argument (.notIterable Datum.null.typeName))
  | some points => make (.text kind.word) metadata (some points)

def eqPoints : List DataPoint → List DataPoint → Bool
  | [], [] => true
  | p :: ps, q :: qs => p.eq q && eqPoints ps qs
  | _, _ => false

/-- **Equality by value.** -/
def eq (s t : Snapshot) : Bool :=
  s.kind == t.kind && s.metadata == t.metadata && eqPoints s.points t.points

/-- The points of a snapshot stay as they are. -/
theorem sorted_points (s : Snapshot) :
    sorted s.kind s.metadata s.points s.unitAllowed s.classed = s :=
  Snapshot.ext rfl rfl (settle_of_chained s.ordered)

theorem ofPoints_points (s : Snapshot) : ofPoints s.kind s.metadata s.points = .ok s := by
  unfold ofPoints
  rw [dif_pos s.unitAllowed]
  split
  · next p hp =>
    have hmem := List.mem_of_find?_eq_some hp
    have hne := List.find?_some hp
    simp [s.classed p hmem] at hne
  · rw [sorted_points]

/-- Points whose timestamps are numbers are in order. -/
theorem pairwise_order (s : Snapshot) (h : ∀ p ∈ s.points, p.isTimed = true) :
    s.points.Pairwise fun p q => (DataPoint.order p q).isLE = true :=
  s.ordered.pairwise_isLE fun p hp q hq => DataPoint.precedes_eq_order (h p hp) (h q hq)

/-- Whatever their timestamps, points are in the order of their labels. -/
theorem pairwise_labels (s : Snapshot) :
    s.points.Pairwise fun p q => (Labels.order p.labels q.labels).isLE = true :=
  (s.ordered.imp fun _ _ _ _ => DataPoint.isLE_labels_of_not_precedes).pairwise
    fun _ _ _ => Std.TransCmp.isLE_trans

end Snapshot

end Telemetry
