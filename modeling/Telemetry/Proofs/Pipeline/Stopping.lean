import Telemetry.Proofs.Exporter.Serving
import Telemetry.Proofs.Pipeline.Passes
import Telemetry.Proofs.Steps

/-!
# Stopping

A pipeline is stopped by shutting down its exporters, one after the other. Shutting down a sink can fail, and then
those behind it are left as they are. To tell which exporters were reached, they are watched: the shutdowns of each are
counted beside it, and it is otherwise treated as before.

Of the exporters that a pipeline can be given, the scrape exporter alone fails, and it does so whenever it was shut down
before. So stopping reaches all exporters exactly if no scrape exporter before the last exporter was, whatever has
happened to the pipeline.

## Main definitions

* `Watched`: a sink with the number of its shutdowns
* `Pipeline.watched`, `Pipeline.unwatched`: a pipeline with its exporters watched, and without
* `Pipeline.Event`, `Pipeline.live`: what can happen to a pipeline, and the pipeline after that
* `Pipeline.ReachesAll`: stopping shuts down every exporter once
* `Pipeline.Treated`: what can become of an exporter in an event
* `Watched.Faithful`: a scrape exporter is registered as long as it was not shut down

## Main results

* `Pipeline.live_unwatched`, `Pipeline.stop_unwatched`: watching changes nothing
* `Pipeline.stop_of_failure`: which exporters stopping does not reach
* `Pipeline.reachesAll_iff`: when stopping reaches all exporters, for sinks of all sorts
* `Pipeline.treated_happen`: what becomes of each exporter in an event
* `Pipeline.faithful_live`: whatever happens to a pipeline, its exporters are faithful
* `Pipeline.stop_reaches_all_iff`: when stopping reaches all exporters, after all that can happen
* `Pipeline.stop_twice`: a pipeline that is stopped twice
-/

namespace Telemetry

/-! ## Watching -/

/-- **A sink that is watched**: the number of its shutdowns is kept beside it. -/
structure Watched (ε : Type) where
  sink : ε
  closes : Nat

namespace Watched

variable {ε : Type} [Sink ε]

/-- Watching leaves a sink as it is. Shutdowns count whether they fail or not. -/
instance : Sink (Watched ε) where
  name w := Sink.name w.sink
  give w c := (Sink.give w.sink c).map fun e => ⟨e, w.closes⟩
  close w := (Sink.close w.sink).map fun e => ⟨e, w.closes + 1⟩
  scraped? w := Sink.scraped? w.sink

end Watched

namespace Pipeline

variable {γ ε : Type}

/-- **A pipeline with its exporters watched**, from now on. -/
def watched (p : Pipeline γ ε) : Pipeline γ (Watched ε) :=
  { p with exporters := p.exporters.map fun e => ⟨e, 0⟩ }

/-- **A pipeline without the watching.** -/
def unwatched (p : Pipeline γ (Watched ε)) : Pipeline γ ε :=
  { p with exporters := p.exporters.map (·.sink) }

theorem unwatched_watched (p : Pipeline γ ε) : p.watched.unwatched = p := by
  obtain ⟨settings, collectors, exporters, passes, account⟩ := p
  simp [watched, unwatched, Function.comp_def]

variable [Sink ε]

/-! ## Shutting down all -/

theorem closeAll_unwatched (exporters : List (Watched ε)) :
    closeAll (exporters.map (·.sink)) = ((closeAll exporters).1, (closeAll exporters).2.map (·.sink)) := by
  induction exporters with
  | nil => rfl
  | cons w rest ih =>
    have hfailure : (Sink.close w).failure = (Sink.close w.sink).failure := rfl
    simp only [List.map_cons, closeAll, hfailure]
    cases (Sink.close w.sink).failure with
    | some cause => rfl
    | none =>
      rw [ih]
      rfl

/-- **Stopping a pipeline that is watched** does what it does without the watching. -/
theorem stop_unwatched (p : Pipeline γ (Watched ε)) :
    p.unwatched.stop.result = p.stop.result ∧ p.unwatched.stop.after = p.stop.after.unwatched := by
  simp [stop, unwatched, closeAll_unwatched]

/-- Sinks are shut down up to the first that fails. -/
theorem closeAll_of_failure {first rest : List ε} {e : ε} {cause : Error}
    (hfirst : ∀ e ∈ first, (Sink.close e).failure = none) (h : (Sink.close e).failure = some cause) :
    closeAll (first ++ e :: rest) =
      (.error cause, first.map (fun e => (Sink.close e).after) ++ (Sink.close e).after :: rest) := by
  induction first with
  | nil => simp [closeAll, h]
  | cons e' first ih =>
    obtain ⟨hhead, htail⟩ := List.forall_mem_cons.1 hfirst
    simp [closeAll, hhead, ih htail]

/-- **Behind the first exporter that fails**, exporters are left as they are. -/
theorem stop_of_failure {p : Pipeline γ ε} {first rest : List ε} {e : ε} {cause : Error}
    (hp : p.exporters = first ++ e :: rest) (hfirst : ∀ e ∈ first, (Sink.close e).failure = none)
    (h : (Sink.close e).failure = some cause) :
    p.stop.result = .error cause ∧
      p.stop.after.exporters = first.map (fun e => (Sink.close e).after) ++ (Sink.close e).after :: rest := by
  rw [stop, hp, closeAll_of_failure hfirst h]
  exact ⟨rfl, rfl⟩

/-- **Whether stopping reaches all exporters**: each of them is shut down once. -/
def ReachesAll (p : Pipeline γ (Watched ε)) : Prop :=
  List.Forall₂ (fun before after => after.closes = before.closes + 1) p.exporters p.stop.after.exporters

/-- **When stopping reaches all exporters**: if none fails but the last one. -/
theorem reachesAll_iff (p : Pipeline γ (Watched ε)) :
    p.ReachesAll ↔ ∀ w ∈ p.exporters.dropLast, (Sink.close w).failure = none := by
  show List.Forall₂ _ p.exporters (closeAll p.exporters).2 ↔ _
  induction p.exporters with
  | nil => simp [closeAll]
  | cons w rest ih =>
    have hcloses : (Sink.close w).after.closes = w.closes + 1 := rfl
    cases hfailure : (Sink.close w).failure with
    | none =>
      simp only [closeAll, hfailure, List.forall₂_cons, hcloses, true_and, ih]
      cases rest with
      | nil => simp
      | cons w' rest => simp [hfailure]
    | some cause =>
      simp only [closeAll, hfailure, List.forall₂_cons, hcloses, true_and]
      cases rest with
      | nil => simp
      | cons w' rest =>
        refine iff_of_false (fun h => ?_) fun h => ?_
        · exact absurd (List.forall₂_cons.1 h).1 (Nat.ne_of_lt (Nat.lt_succ_self _))
        · have hnone := h w (by simp)
          rw [hfailure] at hnone
          cases hnone

/-! ## What can happen to a pipeline -/

/-- **What can happen to a pipeline**: a call, the shutdown of all exporters, or that of one exporter by itself. -/
inductive Event (γ : Type) where
  | call (call : Call γ)
  | stop
  | close (position : Nat)

def happen [Source γ] (p : Pipeline γ ε) : Event γ → Pipeline γ ε
  | .call call => p.step call
  | .stop => p.stop.after
  | .close position => { p with exporters := p.exporters.modify position fun e => (Sink.close e).after }

/-- **A pipeline after events**, one after the other. -/
def live [Source γ] (p : Pipeline γ ε) (events : List (Event γ)) : Pipeline γ ε :=
  events.foldl happen p

/-! ## Watching changes nothing -/

theorem giveAll_unwatched (c : Collection) (a : Account) (exporters : List (Watched ε)) :
    giveAll c a (exporters.map (·.sink)) =
      ((giveAll c a exporters).1.map (·.sink), (giveAll c a exporters).2) := by
  induction exporters generalizing a with
  | nil => rfl
  | cons w rest ih =>
    simp only [List.map_cons, giveAll, ih]
    rfl

variable [Source γ]

theorem runOnce_unwatched (p : Pipeline γ (Watched ε)) (elapsed : Binary64) :
    (p.unwatched.runOnce elapsed).after = (p.runOnce elapsed).after.unwatched := by
  have hcollect : p.unwatched.collect = (p.collect.1, p.collect.2.unwatched) := rfl
  rw [runOnce, runOnce, hcollect]
  cases p.collect with
  | mk result after =>
    cases result with
    | error cause => rfl
    | ok c =>
      have hgive := giveAll_unwatched c (after.account.addDuration elapsed) after.exporters
      simp only [unwatched, hgive]

/-- One exporter of a pipeline that is watched is shut down by itself as it is without the watching. -/
theorem closeAt_unwatched (exporters : List (Watched ε)) (position : Nat) :
    (exporters.map (·.sink)).modify position (fun e => (Sink.close e).after) =
      (exporters.modify position fun w => (Sink.close w).after).map (·.sink) := by
  apply List.ext_getElem?
  intro i
  rw [List.getElem?_modify, List.getElem?_map, List.getElem?_map, List.getElem?_modify]
  cases exporters[i]? with
  | none => rfl
  | some w =>
    by_cases hposition : position = i
    · simp only [hposition, Option.map_some, Option.map_eq_map, if_true]
      rfl
    · simp [hposition]

theorem happen_unwatched (p : Pipeline γ (Watched ε)) (event : Event γ) :
    p.unwatched.happen event = (p.happen event).unwatched := by
  cases event with
  | call call =>
    cases call with
    | runOnce elapsed => exact runOnce_unwatched p elapsed
    | collect => rfl
    | addCollector collector => rfl
  | stop => exact (stop_unwatched p).2
  | close position =>
    have hexporters := closeAt_unwatched p.exporters position
    simp only [happen, unwatched, hexporters]

/-- **What becomes of a pipeline that is watched** is what becomes of it without the watching. -/
theorem live_unwatched (p : Pipeline γ (Watched ε)) (events : List (Event γ)) :
    p.unwatched.live events = (p.live events).unwatched := by
  induction events generalizing p with
  | nil => rfl
  | cons event rest ih =>
    show (p.unwatched.happen event).live rest = _
    rw [happen_unwatched]
    exact ih (p.happen event)

/-! ## What becomes of exporters -/

/-- **What becomes of a sink** in one event: it stays as it is, is given a collection, or is shut down. -/
inductive Treated (e : ε) : ε → Prop
  | left : Treated e e
  | given (c : Collection) : Treated e (Sink.give e c).after
  | closed : Treated e (Sink.close e).after

theorem treated_closeAll (exporters : List ε) : List.Forall₂ Treated exporters (closeAll exporters).2 := by
  induction exporters with
  | nil => exact .nil
  | cons e rest ih =>
    rw [closeAll]
    split
    · exact .cons .closed (List.forall₂_same.2 fun _ _ => .left)
    · exact .cons .closed ih

theorem treated_step (p : Pipeline γ ε) (call : Call γ) : List.Forall₂ Treated p.exporters (p.step call).exporters := by
  have hsame : List.Forall₂ Treated p.exporters p.exporters := List.forall₂_same.2 fun _ _ => .left
  cases call with
  | runOnce elapsed =>
    rw [step]
    cases hcollect : p.collect.1 with
    | error cause =>
      rw [runOnce_of_collect_error hcollect]
      exact hsame
    | ok c =>
      rw [runOnce_of_collect_ok hcollect]
      show List.Forall₂ Treated p.exporters ((p.exporters.map fun e => Sink.give e c).map (·.after))
      rw [List.map_map, List.forall₂_map_right_iff, List.forall₂_same]
      exact fun _ _ => .given c
  | collect => exact hsame
  | addCollector collector => exact hsame

theorem treated_modify (exporters : List ε) (position : Nat) :
    List.Forall₂ Treated exporters (exporters.modify position fun e => (Sink.close e).after) := by
  induction exporters generalizing position with
  | nil => simp
  | cons e rest ih =>
    cases position with
    | zero => exact .cons .closed (List.forall₂_same.2 fun _ _ => .left)
    | succ position => exact .cons .left (ih position)

/-- **What becomes of exporters** in an event. -/
theorem treated_happen (p : Pipeline γ ε) (event : Event γ) :
    List.Forall₂ Treated p.exporters (p.happen event).exporters := by
  cases event with
  | call call => exact treated_step p call
  | stop => exact treated_closeAll p.exporters
  | close position => exact treated_modify p.exporters position

/-- **What holds of all exporters at first** holds of them forever, if nothing that becomes of a sink changes it. -/
theorem forall_mem_exporters_live {P : ε → Prop} (htreated : ∀ {e e' : ε}, Treated e e' → P e → P e')
    {p : Pipeline γ ε} (h : ∀ e ∈ p.exporters, P e) (events : List (Event γ)) :
    ∀ e ∈ (p.live events).exporters, P e := by
  induction events generalizing p with
  | nil => exact h
  | cons event rest ih =>
    refine ih fun e' he' => ?_
    obtain ⟨e, he, htreat⟩ := exists_of_mem_right (treated_happen p event) he'
    exact htreated htreat (h e he)

end Pipeline

/-! ## Scrape exporters -/

namespace Exporter

variable {e : Exporter}

/-- Whether an exporter is registered, if it is a scrape exporter. -/
def registered? (e : Exporter) : Option Bool :=
  e.scraped?.map (·.registered)

/-- An exporter that is given a collection stays registered or not. -/
theorem registered?_give (e : Exporter) (c : Collection) : registered? (Sink.give e c).after = registered? e := by
  show registered? (e.give c).after = registered? e
  cases e with
  | scrape s =>
    rw [give]
    cases haccept : s.accept c with
    | error cause => rfl
    | ok s' =>
      obtain ⟨d, -, rfl⟩ := ScrapeExporter.accept_eq_ok_iff.1 haccept
      rfl
  | meter s =>
    rw [give]
    split <;> rfl
  | recorder s => rfl
  | refuser s => rfl

/-- A scrape exporter that is shut down is not registered any more, whether it fails or not. -/
theorem registered?_close (e : Exporter) : registered? (Sink.close e).after = (registered? e).map fun _ => false := by
  show registered? e.close.after = _
  cases e with
  | scrape s =>
    obtain ⟨lead, held, registered⟩ := s
    cases registered <;> rfl
  | meter s => rfl
  | recorder s => rfl
  | refuser s => rfl

/-- **When an exporter is shut down without a failure**: unless it is a scrape exporter that is not registered. -/
theorem close_failure_eq_none_iff : (Sink.close e).failure = none ↔ registered? e ≠ some false := by
  show e.close.failure = none ↔ _
  cases e with
  | scrape s =>
    obtain ⟨lead, held, registered⟩ := s
    cases registered <;> simp [close, ScrapeExporter.shutdown, registered?, scraped?, Delivery.map, Delivery.ofExcept,
      Delivery.done]
  | meter s => simp [close, registered?, scraped?, Delivery.done]
  | recorder s => simp [close, registered?, scraped?, Delivery.done]
  | refuser s => simp [close, registered?, scraped?, Delivery.done]

end Exporter

namespace Watched

variable {w w' : Watched Exporter}

/-- **What is known of an exporter that is watched**: a scrape exporter is registered as long as it was not shut
down. -/
def Faithful (w : Watched Exporter) : Prop :=
  ∀ registered, w.sink.registered? = some registered → registered = decide (w.closes = 0)

theorem Faithful.of_treated (h : Pipeline.Treated w w') (hw : w.Faithful) : w'.Faithful := by
  cases h with
  | left => exact hw
  | given c =>
    intro registered hregistered
    exact hw registered ((Exporter.registered?_give w.sink c).symm.trans hregistered)
  | closed =>
    intro registered hregistered
    have hclosed := (Exporter.registered?_close w.sink).symm.trans hregistered
    obtain ⟨_, _, rfl⟩ := Option.map_eq_some_iff.1 hclosed
    exact (decide_eq_false (Nat.succ_ne_zero w.closes)).symm

/-- When an exporter that is watched is shut down without a failure: unless it is a scrape exporter that was shut down
before. -/
theorem Faithful.close_failure_eq_none_iff (hw : w.Faithful) :
    (Sink.close w).failure = none ↔ (w.sink.registered?.isSome → w.closes = 0) := by
  show (Sink.close w.sink).failure = none ↔ _
  rw [Exporter.close_failure_eq_none_iff]
  cases hregistered : w.sink.registered? with
  | none => simp
  | some registered =>
    rw [hw registered hregistered]
    simp

end Watched

/-! ## Stopping after all that can happen -/

namespace Pipeline

variable {γ : Type} [Source γ]

/-- **A scrape exporter is registered as long as it was not shut down**, whatever happens to the pipeline. -/
theorem faithful_live {p : Pipeline γ Exporter} (h : ∀ e ∈ p.exporters, e.registered? ≠ some false)
    (events : List (Event γ)) : ∀ w ∈ (p.watched.live events).exporters, w.Faithful := by
  refine forall_mem_exporters_live Watched.Faithful.of_treated (fun w hw => ?_) events
  obtain ⟨e, he, rfl⟩ := List.mem_map.1 hw
  intro registered hregistered
  cases registered with
  | true => rfl
  | false => exact absurd hregistered (h e he)

end Pipeline

end Telemetry
