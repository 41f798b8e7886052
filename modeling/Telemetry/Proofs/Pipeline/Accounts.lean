import Mathlib.Algebra.Ring.Nat
import Telemetry.Proofs.Number.Whole
import Telemetry.Proofs.Pipeline.Passes

/-!
# Accounts

A pipeline keeps count of its passes, of the failures of each exporter, and, if it serves scrapes, of its
snapshots and durations. The counts are kept in different places and by different calls. They agree at all
times with what happened in the passes, whichever calls failed.

## Main definitions

* `countNames`: a dictionary of counts with some names counted
* `Account.addPasses`: an account after passes, in closed form
* `Pipeline.Accounted`: the counts of a pipeline are those of its passes

## Main results

* `lookup_countNames`: a name is counted as often as it occurs
* `Tally.total_whole`: whole amounts are added exactly up to `2 ^ 53`
* `Pipeline.accounted_run`: pipelines are accounted for after all calls
-/

namespace Telemetry

-- Powers are those of whole numbers in the core library, whatever else is in scope.
attribute [local instance (2000)] instPowNat

/-! ## Counting names -/

/-- **One more count for each name.** -/
def countNames (counts : List (String × Nat)) (names : List String) : List (String × Nat) :=
  names.foldl (fun counts name => assign name ((counts.lookup name).getD 0 + 1) counts) counts

theorem countNames_append (counts : List (String × Nat)) (first second : List String) :
    countNames counts (first ++ second) = countNames (countNames counts first) second :=
  List.foldl_append

/-- **A name is counted as often as it occurs.** What does not occur is left as it is. -/
theorem lookup_countNames (counts : List (String × Nat)) (names : List String) (name : String) :
    (countNames counts names).lookup name =
      if names.count name = 0 then counts.lookup name
      else some ((counts.lookup name).getD 0 + names.count name) := by
  -- Induction on the names: the others are counted in a dictionary in which the first one is counted.
  induction names generalizing counts with
  | nil => rfl
  | cons first rest ih =>
    show (countNames (assign first _ counts) rest).lookup name = _
    rw [ih]
    by_cases hname : first = name
    · subst hname
      rw [lookup_assign_self, List.count_cons_self, if_neg (Nat.succ_ne_zero _)]
      split
      · next hzero => rw [hzero]
      · rw [Option.getD_some, Nat.add_assoc, Nat.add_comm 1]
    · rw [lookup_assign_of_ne (Ne.symm hname), List.count_cons_of_ne hname]

/-- In an empty dictionary, exactly the names that occur are there. -/
theorem lookup_countNames_nil (names : List String) (name : String) :
    (countNames [] names).lookup name = if names.count name = 0 then none else some (names.count name) := by
  rw [lookup_countNames, List.lookup_nil, Option.getD_none, Nat.zero_add]

/-! ## Adding whole amounts -/

theorem foldl_add_whole {start : Nat} {amounts : List Nat} (h : start + amounts.sum ≤ 2 ^ (53 : Nat)) :
    (amounts.map fun n => Binary64.ofDecimal false n 0).foldl Binary64.add (.ofDecimal false start 0) =
      .ofDecimal false (start + amounts.sum) 0 := by
  induction amounts generalizing start with
  | nil => rw [List.map_nil, List.foldl_nil, List.sum_nil, Nat.add_zero]
  | cons n rest ih =>
    -- The sum with the first amount is in the range in which sums are exact, and the others go on from there.
    rw [List.sum_cons, ← Nat.add_assoc] at h ⊢
    rw [List.map_cons, List.foldl_cons, Binary64.add_ofDecimal (Nat.le_trans (Nat.le_add_right _ _) h)]
    exact ih h

/-- **Whole amounts are added exactly** as long as their sum is at most `2 ^ 53`. -/
theorem Tally.total_whole {amounts : List Nat} (h : amounts.sum ≤ 2 ^ (53 : Nat)) :
    total ⟨amounts.map fun n => .ofDecimal false n 0⟩ = .ofDecimal false amounts.sum 0 := by
  have hstart : 0 + amounts.sum ≤ 2 ^ (53 : Nat) := by rwa [Nat.zero_add]
  rw [total, ← Binary64.ofDecimal_zero, foldl_add_whole hstart, Nat.zero_add]

/-! ## Accounts after passes -/

section Passes

variable {ε : Type} [Sink ε]

/-- The names of the exporters that failed in passes, as often as they failed. -/
def Pass.allFailed (passes : List (Pass ε)) : List String :=
  passes.flatMap failed

/-- The measurements of a pipeline after passes. -/
def SelfMetrics.addPasses (m : SelfMetrics) (passes : List (Pass ε)) : SelfMetrics where
  lead := m.lead
  snapshots := ⟨m.snapshots.amounts ++ passes.map fun pass => .ofDecimal false pass.collection.size 0⟩
  failures := countNames m.failures (Pass.allFailed passes)
  durations := ⟨m.durations.amounts ++ passes.map (·.elapsed)⟩

/-- **An account after passes.** -/
def Account.addPasses (a : Account) (passes : List (Pass ε)) : Account where
  failures := countNames a.failures (Pass.allFailed passes)
  selfMetrics := a.selfMetrics.map fun m => m.addPasses passes

theorem Account.addFailures_eq (a : Account) (names : List String) :
    a.addFailures names =
      ⟨countNames a.failures names,
        a.selfMetrics.map fun m => { m with failures := countNames m.failures names }⟩ := by
  induction names generalizing a with
  | nil =>
    obtain ⟨failures, selfMetrics⟩ := a
    cases selfMetrics <;> rfl
  | cons name rest ih =>
    show (a.addFailure name).addFailures rest = _
    rw [ih, addFailure]
    cases a.selfMetrics <;> rfl

theorem Account.addPass_eq (a : Account) (pass : Pass ε) : a.addPass pass = a.addPasses [pass] := by
  rw [addPass, addFailures_eq]
  obtain ⟨failures, selfMetrics⟩ := a
  cases selfMetrics <;> simp [addPasses, addDuration, addSnapshots, Pass.allFailed, SelfMetrics.addPasses,
    SelfMetrics.addDuration, SelfMetrics.countSnapshots, Tally.add]

theorem Account.addPasses_append (a : Account) (first second : List (Pass ε)) :
    a.addPasses (first ++ second) = (a.addPasses first).addPasses second := by
  obtain ⟨failures, selfMetrics⟩ := a
  cases selfMetrics <;> simp [addPasses, Pass.allFailed, SelfMetrics.addPasses, countNames_append]

theorem Account.foldl_addPass (a : Account) (passes : List (Pass ε)) :
    passes.foldl addPass a = a.addPasses passes := by
  induction passes generalizing a with
  | nil =>
    obtain ⟨failures, selfMetrics⟩ := a
    cases selfMetrics <;> simp [addPasses, Pass.allFailed, SelfMetrics.addPasses, countNames]
  | cons pass rest ih =>
    rw [List.foldl_cons, ih, addPass_eq, ← addPasses_append]
    rfl

end Passes

/-! ## Pipelines -/

namespace Pipeline

/-- **The counts of a pipeline are those of passes.** -/
structure Accounted {γ ε : Type} [Sink ε] (p : Pipeline γ ε) (passes : List (Pass ε)) : Prop where
  passes_eq : p.passes = passes.length
  /-- An exporter is there if it ever failed, with the number of its failures. -/
  failures : ∀ name, p.account.failures.lookup name =
    if (Pass.allFailed passes).count name = 0 then none else some ((Pass.allFailed passes).count name)
  selfFailures : ∀ m ∈ p.account.selfMetrics, m.failures = p.account.failures
  durations : ∀ m ∈ p.account.selfMetrics,
    m.durations.amounts = passes.map (·.elapsed) ∧ m.durations.amounts.length = p.passes
  snapshots : ∀ m ∈ p.account.selfMetrics,
    m.snapshots.amounts = passes.map fun pass => .ofDecimal false pass.collection.size 0
  /-- The number of snapshots is exact as long as binary64 numbers are. -/
  snapshotsTotal : ∀ m ∈ p.account.selfMetrics,
    (passes.map fun pass => pass.collection.size).sum ≤ 2 ^ (53 : Nat) →
      m.snapshots.total = .ofDecimal false (passes.map fun pass => pass.collection.size).sum 0

section Passes

variable {γ ε : Type} [Sink ε]

theorem account_record_new (settings : PipelineSettings) (collectors : List γ) (exporters : List ε)
    (passes : List (Pass ε)) :
    ((new settings collectors exporters).record passes).account =
      ⟨countNames [] (Pass.allFailed passes),
        (exporters.findSome? Sink.scraped?).map fun e => (SelfMetrics.new e.lead).addPasses passes⟩ := by
  show passes.foldl Account.addPass _ = _
  rw [Account.foldl_addPass, Account.addPasses]
  simp [new, Option.map_map, Function.comp_def]

/-- **A pipeline is accounted for after its passes**, which it made from the beginning. -/
theorem accounted_record_new (settings : PipelineSettings) (collectors : List γ) (exporters : List ε)
    (passes : List (Pass ε)) : ((new settings collectors exporters).record passes).Accounted passes := by
  have haccount := account_record_new settings collectors exporters passes
  have hpasses : ((new settings collectors exporters).record passes).passes = passes.length :=
    Nat.zero_add _
  generalize (new settings collectors exporters).record passes = p at haccount hpasses
  have hmetrics {m : SelfMetrics} (hm : m ∈ p.account.selfMetrics) :
      ∃ lead, m = (SelfMetrics.new lead).addPasses passes := by
    rw [haccount] at hm
    obtain ⟨e, -, heq⟩ := Option.map_eq_some_iff.1 hm
    exact ⟨e.lead, heq.symm⟩
  constructor
  case passes_eq => exact hpasses
  case failures =>
    intro name
    rw [haccount]
    exact lookup_countNames_nil _ name
  case selfFailures =>
    intro m hm
    obtain ⟨lead, rfl⟩ := hmetrics hm
    rw [haccount]
    rfl
  case durations =>
    intro m hm
    obtain ⟨lead, rfl⟩ := hmetrics hm
    refine ⟨rfl, ?_⟩
    rw [hpasses]
    exact List.length_map _
  case snapshots =>
    intro m hm
    obtain ⟨lead, rfl⟩ := hmetrics hm
    rfl
  case snapshotsTotal =>
    intro m hm hsum
    obtain ⟨lead, rfl⟩ := hmetrics hm
    show Tally.total ⟨[] ++ passes.map _⟩ = _
    rw [← Tally.total_whole hsum, List.map_map, List.nil_append]
    simp only [Function.comp_def]

end Passes

variable {γ ε : Type} [Source γ] [Sink ε]

/-- **A pass serves all exporters or nobody**, if collecting takes the given time. -/
structure AllOrNone (p : Pipeline γ ε) (elapsed : Binary64) : Prop where
  /-- A pass fails if collecting fails, and for that cause alone. -/
  fails_iff : ∀ cause, (p.runOnce elapsed).result = .error cause ↔ p.collect.1 = .error cause
  /-- A pass that fails serves nobody, and counts nothing. -/
  unserved : ∀ cause, (p.runOnce elapsed).result = .error cause →
    (p.runOnce elapsed).after.exporters = p.exporters ∧ (p.runOnce elapsed).notices = [] ∧
      (p.runOnce elapsed).after.passes = p.passes ∧ (p.runOnce elapsed).after.account = p.account
  /-- Another pass gives all exporters what it returns, once and in order. -/
  served : ∀ c, (p.runOnce elapsed).result = .ok c →
    (p.runOnce elapsed).after.exporters = p.exporters.map (fun e => (Sink.give e c).after) ∧
      (p.runOnce elapsed).notices =
        p.exporters.flatMap fun e => (Sink.give e c).report (Sink.give e c).sinkName

theorem allOrNone (p : Pipeline γ ε) (elapsed : Binary64) : p.AllOrNone elapsed := by
  cases hcollect : p.collect.1 with
  | error cause =>
    have hpass := runOnce_of_collect_error hcollect elapsed
    constructor
    case fails_iff =>
      intro other
      rw [hpass, hcollect]
    case unserved =>
      intro other _
      rw [hpass]
      exact ⟨rfl, rfl, rfl, rfl⟩
    case served =>
      intro c hok
      rw [hpass] at hok
      cases hok
  | ok c =>
    have hpass := runOnce_of_collect_ok hcollect elapsed
    constructor
    case fails_iff =>
      intro other
      rw [hpass, hcollect]
    case unserved =>
      intro other herror
      rw [hpass] at herror
      cases herror
    case served =>
      intro d hok
      rw [hpass] at hok ⊢
      cases hok
      refine ⟨?_, ?_⟩
      · show (p.exporters.map fun e => Sink.give e c).map (·.after) = _
        rw [List.map_map]
        rfl
      · show (p.exporters.map fun e => Sink.give e c).flatMap _ = _
        rw [List.flatMap_map]

/-- The counts after calls are those of the passes that collected. -/
theorem Accounted.run_new (settings : PipelineSettings) (collectors : List γ) (exporters : List ε)
    (calls : List (Call γ)) :
    ((new settings collectors exporters).run calls).Accounted
      ((new settings collectors exporters).history calls) := by
  obtain ⟨after, hrun⟩ := (new settings collectors exporters).exists_run_eq calls
  obtain ⟨hpasses, hfailures, hself, hdurations, hsnapshots, htotal⟩ :=
    accounted_record_new settings collectors exporters ((new settings collectors exporters).history calls)
  rw [hrun]
  exact ⟨hpasses, hfailures, hself, hdurations, hsnapshots, htotal⟩

/-- **Pipelines are accounted for after all calls**, whichever of them fail: the next pass serves all exporters
or nobody, and the counts are those of the passes that collected. Pipelines measure themselves if one of their
exporters serves scrapes. -/
theorem accounted_run (settings : PipelineSettings) (collectors : List γ) (exporters : List ε)
    (calls : List (Call γ)) :
    (∀ elapsed, ((new settings collectors exporters).run calls).AllOrNone elapsed) ∧
      ((new settings collectors exporters).run calls).Accounted
        ((new settings collectors exporters).history calls) ∧
      (((new settings collectors exporters).run calls).account.selfMetrics.isSome ↔
        ∃ e ∈ exporters, (Sink.scraped? e).isSome) := by
  refine ⟨fun elapsed => allOrNone _ elapsed, .run_new settings collectors exporters calls, ?_⟩
  obtain ⟨after, hrun⟩ := (new settings collectors exporters).exists_run_eq calls
  rw [hrun]
  show (record _ _).account.selfMetrics.isSome ↔ _
  rw [account_record_new, Option.isSome_map, List.isSome_findSome?, List.any_eq_true]

end Pipeline

end Telemetry
