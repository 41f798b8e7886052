import Telemetry.Pipeline

/-!
# Passes

A pipeline is asked for passes and for the collection of the moment, and is given more collectors, in any
order. What happened in those passes that collected is its history. All that calls leave behind, other than
in the collectors, is told by the history: a call that does not collect leaves nothing behind.

## Main definitions

* `Pipeline.Call`, `Pipeline.run`: the calls on a pipeline, and the pipeline after calls
* `Pass`: a pass that collected, with its deliveries to the exporters
* `Pipeline.history`: the passes of calls that collected
* `Pipeline.record`: a pipeline after passes, apart from its collectors

## Main results

* `Pipeline.runOnce_of_collect_ok`, `Pipeline.runOnce_of_collect_error`: all that a pass does
* `Pipeline.exists_run_eq`: calls leave behind what their history tells
-/

namespace Telemetry

/-! ## One pass -/

section Pass

variable {γ ε : Type} [Sink ε]

def Delivery.sinkName (d : Delivery ε) : String :=
  Sink.name d.after

/-- **The names of the sinks that failed** among deliveries. -/
def Delivery.failedNames (deliveries : List (Delivery ε)) : List String :=
  (deliveries.filter fun d => d.failure.isSome).map sinkName

def Account.addFailures (a : Account) (names : List String) : Account :=
  names.foldl addFailure a

/-- **A pass that collected**: how long collecting took, what was collected, and its deliveries. -/
structure Pass (ε : Type) where
  elapsed : Binary64
  collection : Collection
  deliveries : List (Delivery ε)

namespace Pass

def exporters (pass : Pass ε) : List ε :=
  pass.deliveries.map (·.after)

def failed (pass : Pass ε) : List String :=
  Delivery.failedNames pass.deliveries

def notices (pass : Pass ε) : List Notice :=
  pass.deliveries.flatMap fun d => d.report d.sinkName

end Pass

/-- **The account of a pass**: its duration, the exporters that failed, and the number of snapshots. -/
def Account.addPass (a : Account) (pass : Pass ε) : Account :=
  ((a.addDuration pass.elapsed).addFailures pass.failed).addSnapshots pass.collection.size

/-- **A pipeline after passes**, apart from its collectors. -/
def Pipeline.record (p : Pipeline γ ε) (passes : List (Pass ε)) : Pipeline γ ε :=
  { p with
    exporters := passes.foldl (fun _ pass => pass.exporters) p.exporters
    passes := p.passes + passes.length
    account := passes.foldl Account.addPass p.account }

theorem Pipeline.record_append (p : Pipeline γ ε) (first second : List (Pass ε)) :
    p.record (first ++ second) = (p.record first).record second := by
  simp [record, Nat.add_assoc]

end Pass

namespace Pipeline

/-! ## Calls -/

/-- **A call on a pipeline.** Collecting in a pass takes the given time. -/
inductive Call (γ : Type) where
  | runOnce (elapsed : Binary64)
  | collect
  | addCollector (collector : γ)

variable {γ ε : Type} [Source γ] [Sink ε] {p : Pipeline γ ε}

def step (p : Pipeline γ ε) : Call γ → Pipeline γ ε
  | .runOnce elapsed => (p.runOnce elapsed).after
  | .collect => p.collect.2
  | .addCollector collector => p.addCollector collector

/-- **A pipeline after calls**, one after the other. -/
def run (p : Pipeline γ ε) (calls : List (Call γ)) : Pipeline γ ε :=
  calls.foldl step p

/-- **The pass that hands over a collection**: each exporter is given it once. -/
def handOver (p : Pipeline γ ε) (elapsed : Binary64) (c : Collection) : Pass ε :=
  ⟨elapsed, c, p.exporters.map fun e => Sink.give e c⟩

/-- The pass that a call makes, if it makes one and collecting succeeds. -/
def pass? (p : Pipeline γ ε) : Call γ → Option (Pass ε)
  | .runOnce elapsed => p.collect.1.toOption.map (p.handOver elapsed)
  | .collect => none
  | .addCollector _ => none

/-- **The passes of calls that collected**, in order. -/
def history (p : Pipeline γ ε) : List (Call γ) → List (Pass ε)
  | [] => []
  | call :: rest => (p.pass? call).toList ++ (p.step call).history rest

/-! ## What one call does -/

/-- **All exporters are given the collection once**, in order. Those that fail are counted, and reported behind
what they report themselves. -/
theorem giveAll_eq (c : Collection) (a : Account) (exporters : List ε) :
    giveAll c a exporters =
      (exporters.map fun e => (Sink.give e c).after,
        a.addFailures (Delivery.failedNames (exporters.map fun e => Sink.give e c)),
        exporters.flatMap fun e => (Sink.give e c).report (Sink.give e c).sinkName) := by
  induction exporters generalizing a with
  | nil => rfl
  | cons e rest ih =>
    simp only [giveAll, ih, List.map_cons, List.flatMap_cons, Prod.mk.injEq, true_and]
    refine ⟨?_, rfl⟩
    cases hfailure : (Sink.give e c).failure with
    | none => simp [Account.addDelivery, Delivery.failedNames, hfailure]
    | some cause =>
      simp [Account.addDelivery, Delivery.failedNames, Delivery.sinkName, Account.addFailures, hfailure]

/-- **A pass that does not collect** gives nothing to anyone, and counts nothing. -/
theorem runOnce_of_collect_error {cause : Error} (h : p.collect.1 = .error cause) (elapsed : Binary64) :
    p.runOnce elapsed = ⟨.error cause, p.collect.2, []⟩ := by
  have hcollect : p.collect = (.error cause, p.collect.2) := Prod.ext h rfl
  unfold runOnce
  rw [hcollect]

/-- **A pass that collects** gives the collection to all exporters, and is counted. -/
theorem runOnce_of_collect_ok {c : Collection} (h : p.collect.1 = .ok c) (elapsed : Binary64) :
    p.runOnce elapsed =
      ⟨.ok c, p.collect.2.record [p.handOver elapsed c], (p.handOver elapsed c).notices⟩ := by
  have hcollect : p.collect = (.ok c, p.collect.2) := Prod.ext h rfl
  unfold runOnce
  rw [hcollect]
  simp only [giveAll_eq]
  simp [record, handOver, Pass.exporters, Pass.notices, Account.addPass, Pass.failed, collect,
    List.flatMap_map]

/-! ## What calls do -/

/-- A call leaves behind what its pass tells, if it makes one. -/
theorem exists_step_eq (p : Pipeline γ ε) (call : Call γ) :
    ∃ collectors, p.step call = { p.record (p.pass? call).toList with collectors := collectors } := by
  cases call with
  | runOnce elapsed =>
    cases hcollect : p.collect.1 with
    | error cause =>
      refine ⟨(Source.gatherAll p.collectors).2, ?_⟩
      rw [step, runOnce_of_collect_error hcollect, pass?, hcollect]
      rfl
    | ok c =>
      refine ⟨(Source.gatherAll p.collectors).2, ?_⟩
      rw [step, runOnce_of_collect_ok hcollect, pass?, hcollect]
      rfl
  | collect => exact ⟨(Source.gatherAll p.collectors).2, rfl⟩
  | addCollector collector => exact ⟨p.collectors ++ [collector], rfl⟩

/-- **Calls leave behind what their history tells**, whatever becomes of the collectors. -/
theorem exists_run_eq (p : Pipeline γ ε) (calls : List (Call γ)) :
    ∃ collectors, p.run calls = { p.record (p.history calls) with collectors := collectors } := by
  induction calls generalizing p with
  | nil => exact ⟨p.collectors, rfl⟩
  | cons call rest ih =>
    obtain ⟨first, hstep⟩ := p.exists_step_eq call
    obtain ⟨last, hrun⟩ := ih (p.step call)
    refine ⟨last, ?_⟩
    -- What the first call leaves behind is where the others go on, but for the collectors.
    rw [history, record_append]
    show (p.step call).run rest = _
    rw [hrun]
    generalize (p.step call).history rest = others
    rw [hstep]
    rfl

end Pipeline

end Telemetry
