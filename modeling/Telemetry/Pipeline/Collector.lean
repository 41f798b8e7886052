import Telemetry.Collection

/-!
# Collectors

A collector gives the snapshots of one source in every pass, or fails.

## Main definitions

* `Source`: what can give snapshots
* `Source.gatherAll`: the snapshots of several sources
* `Collector`: the source that gives the same in every pass
-/

namespace Telemetry

/-- **What can give snapshots.** A source may change whenever it is asked. -/
class Source (γ : Type) where
  gather : γ → Except Error (List SnapshotArgument) × γ

/-- **The snapshots of several sources**, in order. Behind the first source that fails no other is
asked. -/
def Source.gatherAll {γ : Type} [Source γ] : List γ → Except Error (List SnapshotArgument) × List γ
  | [] => (.ok [], [])
  | source :: rest =>
    match Source.gather source with
    | (.error cause, source) => (.error cause, source :: rest)
    | (.ok snapshots, source) =>
      let (others, rest) := gatherAll rest
      (others.map (snapshots ++ ·), source :: rest)

/-- **The source that gives the same in every pass.** -/
structure Collector where
  answer : Except Error (List SnapshotArgument)

instance : Source Collector where
  gather c := (c.answer, c)

end Telemetry
