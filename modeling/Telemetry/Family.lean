import Telemetry.Collection
import Telemetry.Family.Sample

/-!
# Families

A family is a metric as scrapes see it: an exposed name that ends with the unit, a help text, a kind and
samples.

## Main definitions

* `Family`: a metric as scrapes see it
* `Metadata.familyName`: the name of the family of a metric
* `Family.ofSnapshot`: the family of a snapshot
* `Collection.families`: the families of a collection
-/

namespace Telemetry

/-- **A metric as scrapes see it.** -/
structure Family where
  name : String
  help : String
  kind : Kind
  unit : String
  samples : List Sample

def endsWith (s ending : String) : Bool :=
  ending.toList.isSuffixOf s.toList

/-- **The name of the family of a metric**: the exposed name, with the unit at its end. -/
def Metadata.familyName (m : Metadata) : String :=
  match m.unit with
  | none => m.exposedName
  | some unit =>
    if endsWith m.exposedName ("_" ++ unit.name) then m.exposedName
    else m.exposedName ++ "_" ++ unit.name

/-- The samples of points, one after the other. -/
def samplesOf (family : String) : List DataPoint → Except Error (List Sample)
  | [] => .ok []
  | p :: rest => do
    let samples ← p.samples family
    let others ← samplesOf family rest
    return samples ++ others

/-- **The family of a snapshot.** Timestamps have to fit into binary64 numbers. -/
def Family.ofSnapshot (s : Snapshot) : Except Error Family := do
  let samples ← samplesOf s.metadata.familyName s.points
  return {
    name := s.metadata.familyName
    help := s.metadata.help.getD ""
    kind := s.kind
    unit := (s.metadata.unit.map (·.name)).getD ""
    samples := samples }

/-- Families of snapshots, one after the other. -/
def Family.ofSnapshots : List Snapshot → Except Error (List Family)
  | [] => .ok []
  | s :: rest => do
    let family ← Family.ofSnapshot s
    let families ← Family.ofSnapshots rest
    return family :: families

/-- **The families of a collection**, in its order. -/
def Collection.families (c : Collection) : Except Error (List Family) :=
  Family.ofSnapshots c.snapshots

end Telemetry
