import Telemetry.Snapshot.Basic

/-!
# Combining and changing snapshots

## Main definitions

* `Snapshot.merge`: the points of two snapshots of one metric
* `Snapshot.withNamePrefix`: a snapshot under a longer name
* `Snapshot.withLabels`: a snapshot with labels added to every point
* `Snapshot.duplicateLabels`: the label sets that several points have

## Main results

* `Snapshot.merge_eq_ok_iff`: exactly snapshots of equal metadata and kind can be merged
-/

namespace Telemetry.Snapshot

/-! ## Merging -/

/-- What keeps two snapshots from being merged. Metadata are compared before kinds. -/
def mergeError? (s t : Snapshot) : Option SnapshotError :=
  if s.metadata ≠ t.metadata then some (.metadataMismatch s.metadata.name)
  else if s.kind ≠ t.kind then some (.kindMismatch s.kind.word t.kind.word)
  else none

theorem mergeError?_eq_none_iff {s t : Snapshot} :
    mergeError? s t = none ↔ s.metadata = t.metadata ∧ s.kind = t.kind := by
  unfold mergeError?
  split
  · simp_all
  · split <;> simp_all

/-- **The points of two snapshots of one metric**, in order. None is dropped. -/
def merge (s t : Snapshot) : Except Error Snapshot :=
  match h : mergeError? s t with
  | some e => .error (.snapshot e)
  | none =>
    .ok (sorted s.kind s.metadata (s.points ++ t.points) s.unitAllowed fun p hp => by
      rcases List.mem_append.1 hp with hp | hp
      · exact s.classed p hp
      · rw [(mergeError?_eq_none_iff.1 h).2]
        exact t.classed p hp)

/-- Exactly snapshots of equal metadata and kind can be merged. -/
theorem merge_eq_ok_iff {s t : Snapshot} :
    (∃ r, merge s t = .ok r) ↔ s.metadata = t.metadata ∧ s.kind = t.kind := by
  rw [← mergeError?_eq_none_iff]
  unfold merge
  split <;> simp [*]

/-! ## Renaming and relabelling -/

/-- **A text in front of the name.** The longer name has to be legal. -/
def withNamePrefix (s : Snapshot) (lead : String) : Except Error Snapshot := do
  let metadata ← s.metadata.withNamePrefix lead
  ofPoints s.kind metadata s.points

/-- Points with labels added, one after the other. -/
def extendPoints (extra : Labels) : List DataPoint → Except Error (List DataPoint)
  | [] => .ok []
  | p :: rest => do
    let labels ← p.labels.merge extra
    let points ← extendPoints extra rest
    return p.relabel labels :: points

/-- **Labels added to every point**, which are then put in order again. -/
def extendLabels (s : Snapshot) (extra : Labels) : Except Error Snapshot := do
  let points ← extendPoints extra s.points
  ofPoints s.kind s.metadata points

/-- Labels added to every point, from what is handed over for them. -/
def withLabels (s : Snapshot) (labels : LabelArgument) : Except Error Snapshot := do
  let extra ← labels.resolve
  s.extendLabels extra

/-! ## Duplicates -/

/-- The label sets at which neighbours agree; a run of equal ones counts once. -/
def repeated (reported : Option Labels) : List Labels → List Labels
  | a :: b :: rest =>
    if a = b ∧ reported ≠ some b then b :: repeated (some b) (b :: rest)
    else repeated reported (b :: rest)
  | _ => []

/-- **The label sets that neighbouring points share.** -/
def duplicateLabels (s : Snapshot) : List Labels :=
  repeated none (s.points.map (·.labels))

end Telemetry.Snapshot
