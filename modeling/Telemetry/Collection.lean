import Telemetry.Snapshot

/-!
# Collections

A collection holds snapshots in the order of their exposed names, which are pairwise distinct.

## Main definitions

* `Collection`: collections of snapshots
* `Collection.ofSnapshots`: the collection of snapshots of different metrics
* `Collection.merged`: the collection in which snapshots of one metric are merged
* `Collection.get?`: look-up by exposed name
* `Collection.withNamePrefix`, `Collection.withLabels`: every snapshot renamed or relabelled

## Main results

* `Collection.ofSnapshots_snapshots`: a collection is made again from its snapshots
-/

namespace Telemetry

/-- Snapshots are ordered by their exposed names. -/
def Snapshot.nameOrder : Snapshot → Snapshot → Ordering :=
  compareOn Snapshot.exposedName

instance : Std.TransCmp Snapshot.nameOrder :=
  inferInstanceAs (Std.TransCmp (compareOn Snapshot.exposedName))

/-- **A collection of snapshots**, one for each exposed name. -/
@[ext]
structure Collection where
  snapshots : List Snapshot
  increasing : Increasing Snapshot.nameOrder snapshots

namespace Collection

def empty : Collection :=
  ⟨[], increasing_nil⟩

instance : Inhabited Collection := ⟨empty⟩

/-- **The collection of snapshots** in any order. Their exposed names have to be pairwise distinct. -/
def ofSnapshots (snapshots : List Snapshot) : Except Error Collection :=
  match h : firstTie? Snapshot.nameOrder (arrange Snapshot.nameOrder snapshots) with
  | some (_, second) => .error (.snapshot (.duplicateMetric second.exposedName))
  | none => .ok ⟨arrange Snapshot.nameOrder snapshots, increasing_arrange h⟩

/-- A collection is made again from its snapshots. -/
theorem ofSnapshots_snapshots (c : Collection) : ofSnapshots c.snapshots = .ok c := by
  unfold ofSnapshots
  split
  · next _ second htie =>
    rw [c.increasing.arrange_eq, c.increasing.firstTie?_eq_none] at htie
    exact absurd htie (by simp)
  · congr 1
    exact Collection.ext c.increasing.arrange_eq

/-- Snapshots of different metrics with one more: it is merged into the one of its exposed name, or put
at the end. -/
def absorb (s : Snapshot) : List Snapshot → Except Error (List Snapshot)
  | [] => .ok [s]
  | known :: rest =>
    if known.exposedName = s.exposedName then do
      let both ← known.merge s
      return both :: rest
    else do
      let others ← absorb s rest
      return known :: others

/-- Snapshots of different metrics with more of them, one after the other. -/
def absorbAll (known : List Snapshot) : List Snapshot → Except Error (List Snapshot)
  | [] => .ok known
  | s :: rest => do
    let known ← absorb s known
    absorbAll known rest

/-- **The collection in which snapshots of one exposed name are merged.** -/
def merged (snapshots : List Snapshot) : Except Error Collection := do
  let distinct ← absorbAll [] snapshots
  ofSnapshots distinct

def size (c : Collection) : Nat :=
  c.snapshots.length

def exposedNames (c : Collection) : List String :=
  c.snapshots.map Snapshot.exposedName

/-- **The snapshot of an exposed name.** -/
def get? (c : Collection) (exposedName : String) : Option Snapshot :=
  c.snapshots.find? (·.exposedName == exposedName)

def changeAll (change : Snapshot → Except Error Snapshot) :
    List Snapshot → Except Error (List Snapshot)
  | [] => .ok []
  | s :: rest => do
    let changed ← change s
    let others ← changeAll change rest
    return changed :: others

/-- **A text in front of every name.** -/
def withNamePrefix (c : Collection) (lead : String) : Except Error Collection := do
  let snapshots ← changeAll (·.withNamePrefix lead) c.snapshots
  ofSnapshots snapshots

/-- **Labels added to every point of every snapshot.** -/
def withLabels (c : Collection) (labels : LabelArgument) : Except Error Collection := do
  let snapshots ← changeAll (·.withLabels labels) c.snapshots
  ofSnapshots snapshots

end Collection

/-! ## Arguments -/

/-- What is handed over for a snapshot. -/
inductive SnapshotArgument where
  | snapshot (s : Snapshot)
  | datum (d : Datum)

namespace SnapshotArgument

/-- A snapshot merged with what is handed over. -/
def mergeInto (s : Snapshot) : SnapshotArgument → Except Error Snapshot
  | .snapshot t => s.merge t
  | .datum _ => .error (.snapshot .notSnapshot)

/-- What is handed over, merged with a snapshot. -/
def mergeWith (s : Snapshot) : SnapshotArgument → Except Error Snapshot
  | .snapshot t => t.merge s
  | .datum d => .error (.argument (.noAttribute d.typeName "merge"))

/-- Whether what is handed over equals a snapshot by value. -/
def eq (s : Snapshot) : SnapshotArgument → Bool
  | .snapshot t => s.eq t
  | .datum _ => false

/-- The snapshots in front of the first argument that is none, and that argument. -/
def split : List SnapshotArgument → List Snapshot × Option Datum
  | [] => ([], none)
  | .snapshot s :: rest => (s :: (split rest).1, (split rest).2)
  | .datum d :: _ => ([], some d)

/-- What is wrong with an argument that has no exposed name. -/
def namelessError (d : Datum) : Error :=
  .argument (.noAttribute d.typeName "prometheus_name")

end SnapshotArgument

namespace Collection

def ofArguments (arguments : List SnapshotArgument) : Except Error Collection :=
  match SnapshotArgument.split arguments with
  | (_, some d) => .error (SnapshotArgument.namelessError d)
  | (snapshots, none) => ofSnapshots snapshots

/-- The collection in which what is handed over is merged, up to the first argument that is no
snapshot. -/
def mergedArguments (arguments : List SnapshotArgument) : Except Error Collection := do
  let (snapshots, stop) := SnapshotArgument.split arguments
  let distinct ← absorbAll [] snapshots
  match stop with
  | some d => .error (SnapshotArgument.namelessError d)
  | none => ofSnapshots distinct

end Collection

end Telemetry
