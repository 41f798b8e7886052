import Mathlib.Data.List.Perm.Basic
import Telemetry.Proofs.Pipeline.Accounts

/-!
# Isolation

The exporters of a pipeline do not influence one another. What a pass collects depends on the collectors alone,
and each exporter ends where it would have ended alone, with the same failures. The order of the exporters does
not matter to the numbers of failures.

## Main definitions

* `Sink.after`, `Sink.failedAs`: an exporter alone with collections, and the names under which it failed
* `Pipeline.results`: what passes return

## Main results

* `Pipeline.exporters_run`: every exporter ends as if it were alone
* `Pipeline.allFailed_perm`: the failures of passes are those of the exporters alone
* `Pipeline.exporters_isolated`: exporters do not influence one another
-/

namespace Telemetry

/-! ## One exporter alone -/

namespace Sink

variable {ε : Type} [Sink ε]

/-- **An exporter after collections** that it was given one after the other. -/
def after (e : ε) (collections : List Collection) : ε :=
  collections.foldl (fun e c => (give e c).after) e

/-- The names under which an exporter failed on collections. -/
def failedAs (e : ε) : List Collection → List String
  | [] => []
  | c :: rest => Delivery.failedNames [give e c] ++ failedAs (give e c).after rest

end Sink

/-- The failures among deliveries are those of each of them. -/
theorem Delivery.failedNames_eq_flatMap {ε : Type} [Sink ε] (deliveries : List (Delivery ε)) :
    failedNames deliveries = deliveries.flatMap fun d => failedNames [d] := by
  induction deliveries with
  | nil => rfl
  | cons d rest ih =>
    rw [List.flatMap_cons, ← ih]
    simp only [failedNames, ← List.map_append, ← List.filter_append, List.singleton_append]

/-! ## What is collected -/

namespace Pipeline

variable {γ ε : Type} [Source γ] [Sink ε]

/-- **What passes return**, if collecting takes the given times. -/
def results (p : Pipeline γ ε) : List Binary64 → List (Except Error Collection)
  | [] => []
  | elapsed :: rest => (p.runOnce elapsed).result :: results (p.runOnce elapsed).after rest

/-- What a number of passes over collectors collect. -/
def gathered (settings : PipelineSettings) : Nat → List γ → List (Except Error Collection)
  | 0, _ => []
  | n + 1, collectors =>
    ((Source.gatherAll collectors).1 >>= settings.apply) ::
      gathered settings n (Source.gatherAll collectors).2

/-- The passes at which collecting takes the given times. -/
def passesOf (times : List Binary64) : List (Call γ) :=
  times.map .runOnce

/-- **What passes return depends on the collectors alone.** -/
theorem results_eq_gathered (p : Pipeline γ ε) (times : List Binary64) :
    p.results times = gathered p.settings times.length p.collectors := by
  induction times generalizing p with
  | nil => rfl
  | cons elapsed rest ih =>
    rw [results, ih, List.length_cons, gathered]
    cases hcollect : p.collect.1 with
    | error cause =>
      rw [runOnce_of_collect_error hcollect]
      exact congrArg (· :: _) hcollect.symm
    | ok c =>
      rw [runOnce_of_collect_ok hcollect]
      exact congrArg (· :: _) hcollect.symm

def collected (p : Pipeline γ ε) (times : List Binary64) : List Collection :=
  (p.results times).filterMap Except.toOption

theorem collected_cons_of_error {p : Pipeline γ ε} {cause : Error} (h : p.collect.1 = .error cause)
    (elapsed : Binary64) (rest : List Binary64) :
    p.collected (elapsed :: rest) = p.collect.2.collected rest := by
  rw [collected, results, runOnce_of_collect_error h]
  rfl

theorem collected_cons_of_ok {p : Pipeline γ ε} {c : Collection} (h : p.collect.1 = .ok c)
    (elapsed : Binary64) (rest : List Binary64) :
    p.collected (elapsed :: rest) =
      c :: (p.collect.2.record [p.handOver elapsed c]).collected rest := by
  rw [collected, results, runOnce_of_collect_ok h]
  rfl

/-! ## Exporters in a pipeline -/

/-- **Every exporter ends as if it were alone** with the collections. -/
theorem exporters_run (p : Pipeline γ ε) (times : List Binary64) :
    (p.run (passesOf times)).exporters = p.exporters.map fun e => Sink.after e (p.collected times) := by
  induction times generalizing p with
  | nil => exact (List.map_id _).symm
  | cons elapsed rest ih =>
    show ((p.runOnce elapsed).after.run (passesOf rest)).exporters = _
    rw [ih]
    cases hcollect : p.collect.1 with
    | error cause =>
      rw [collected_cons_of_error hcollect, runOnce_of_collect_error hcollect]
      rfl
    | ok c =>
      rw [collected_cons_of_ok hcollect, runOnce_of_collect_ok hcollect]
      show ((p.exporters.map fun e => Sink.give e c).map (·.after)).map _ = _
      rw [List.map_map, List.map_map]
      rfl

theorem history_cons_of_error {p : Pipeline γ ε} {cause : Error} (h : p.collect.1 = .error cause)
    (elapsed : Binary64) (rest : List Binary64) :
    p.history (passesOf (elapsed :: rest)) = p.collect.2.history (passesOf rest) := by
  show (p.pass? (.runOnce elapsed)).toList ++ (p.runOnce elapsed).after.history (passesOf rest) = _
  rw [pass?, h, runOnce_of_collect_error h]
  rfl

theorem history_cons_of_ok {p : Pipeline γ ε} {c : Collection} (h : p.collect.1 = .ok c)
    (elapsed : Binary64) (rest : List Binary64) :
    p.history (passesOf (elapsed :: rest)) =
      p.handOver elapsed c :: (p.collect.2.record [p.handOver elapsed c]).history (passesOf rest) := by
  show (p.pass? (.runOnce elapsed)).toList ++ (p.runOnce elapsed).after.history (passesOf rest) = _
  rw [pass?, h, runOnce_of_collect_ok h]
  rfl

/-- **The failures of passes are those of the exporters alone**, in another order. -/
theorem allFailed_perm (p : Pipeline γ ε) (times : List Binary64) :
    (Pass.allFailed (p.history (passesOf times))).Perm
      (p.exporters.flatMap fun e => Sink.failedAs e (p.collected times)) := by
  induction times generalizing p with
  | nil => simp [passesOf, history, Pass.allFailed, collected, results, Sink.failedAs]
  | cons elapsed rest ih =>
    cases hcollect : p.collect.1 with
    | error cause =>
      rw [history_cons_of_error hcollect, collected_cons_of_error hcollect]
      exact ih p.collect.2
    | ok c =>
      rw [history_cons_of_ok hcollect, collected_cons_of_ok hcollect]
      have hrest := ih (p.collect.2.record [p.handOver elapsed c])
      generalize (p.collect.2.record [p.handOver elapsed c]).collected rest = others at hrest ⊢
      have hexporters : (p.collect.2.record [p.handOver elapsed c]).exporters =
          p.exporters.map fun e => (Sink.give e c).after := List.map_map
      have hfirst : (p.handOver elapsed c).failed =
          p.exporters.flatMap fun e => Delivery.failedNames [Sink.give e c] := by
        rw [Pass.failed, Delivery.failedNames_eq_flatMap]
        exact List.flatMap_map _ _ _
      rw [hexporters, List.flatMap_map] at hrest
      -- The failures of this pass come before all others here, and exporter by exporter there.
      show ((p.handOver elapsed c).failed ++ Pass.allFailed _).Perm _
      rw [hfirst]
      exact (hrest.append_left _).trans (List.flatMap_append_perm _ _ _)

/-- **Exporters do not influence one another.** What passes return does not depend on the exporters; each exporter
ends as if it were alone with the collections that they return, and as it does in a pipeline with no other; and
the numbers of failures do not depend on the order of the exporters. -/
theorem exporters_isolated (settings : PipelineSettings) (collectors : List γ) (exporters : List ε)
    (times : List Binary64) :
    (∀ others : List ε,
      (new settings collectors others).results times = (new settings collectors exporters).results times) ∧
    ((new settings collectors exporters).run (passesOf times)).exporters =
      exporters.map (fun e => Sink.after e ((new settings collectors exporters).collected times)) ∧
    (∀ e : ε, ((new settings collectors [e]).run (passesOf times)).exporters =
      [Sink.after e ((new settings collectors exporters).collected times)]) ∧
    (∀ others : List ε, others.Perm exporters → ∀ name,
      ((new settings collectors others).run (passesOf times)).account.failures.lookup name =
        ((new settings collectors exporters).run (passesOf times)).account.failures.lookup name) := by
  have hresults (others : List ε) : (new settings collectors others).results times =
      (new settings collectors exporters).results times := by
    rw [results_eq_gathered, results_eq_gathered]
    rfl
  have hcollected (others : List ε) : (new settings collectors others).collected times =
      (new settings collectors exporters).collected times := by
    rw [collected, collected, hresults]
  refine ⟨hresults, exporters_run _ times, fun e => ?_, fun others hperm name => ?_⟩
  · rw [exporters_run, hcollected]
    rfl
  · -- Exporters fail alike in any order, so that every name is counted as often.
    have hcount : (Pass.allFailed ((new settings collectors others).history (passesOf times))).count name =
        (Pass.allFailed ((new settings collectors exporters).history (passesOf times))).count name := by
      have hothers := allFailed_perm (new settings collectors others) times
      rw [hcollected] at hothers
      have hsame := hothers.trans ((hperm.flatMap_right _).trans (allFailed_perm _ times).symm)
      exact hsame.count_eq name
    rw [(Accounted.run_new settings collectors others _).failures,
      (Accounted.run_new settings collectors exporters _).failures, hcount]

end Pipeline

end Telemetry
