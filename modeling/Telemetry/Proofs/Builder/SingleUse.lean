import Telemetry.Builder.Fields
import Telemetry.Builder.Point
import Telemetry.Builder.Snapshot

/-!
# Builders are used once

A builder is asked for calls and for attempts in any order, and its factory may have effects. The first
attempt consumes the builder, whatever comes of it; from then on every request is refused, and the factory is
not called again. A call that fails leaves no trace.

A name that stands for the builder itself cannot be given to a method. Where one is, no method is called at all, so that this is
not among the requests.

## Main definitions

* `Request`: what is asked of a builder
* `Bench`: a builder, and what its factory acts on
* `BuilderClass.serve`: the answer to a request, and what it leaves
* `BuilderClass.after`, `BuilderClass.answers`: what requests leave, and the answers to them
* `BuilderClass.SingleUse`: what it means that a builder is used once

## Main results

* `BuilderClass.serve_of_consumed`, `BuilderClass.serve_call_cases`, `BuilderClass.serve_build_cases`: what a request
  does
* `BuilderClass.consumed_after`, `BuilderClass.answers_of_consumed`, `BuilderClass.world_after`: what requests do
* `BuilderClass.builders_single_use`: all builders are used once
-/

namespace Telemetry

variable {α β δ κ σ : Type}

/-- **What is asked of a builder**: a call with names that can be given, or the attempt to make something. -/
inductive Request (C : BuilderClass δ κ α) where
  | call (call : κ) (bound : "self" ∉ C.names call)
  | build

/-- **A builder, and the world** that its factory acts on. -/
structure Bench (δ σ : Type) where
  builder : Builder δ
  world : σ

namespace BuilderClass

section Serving

variable (C : BuilderClass δ κ α) (factory : α → StateM σ (Except Error β))

/-- **The answer to a request**, and what it leaves. A call that succeeds makes nothing. -/
def serve (bench : Bench δ σ) : Request C → Except Error (Option β) × Bench δ σ
  | .call call _ =>
    match (C.perform call).run bench.builder with
    | .ok () b => (.ok none, ⟨b, bench.world⟩)
    | .error e b => (.error e, ⟨b, bench.world⟩)
  | .build =>
    match (C.attempt factory bench.builder).run bench.world with
    | ((made, b), world) => (made.map some, ⟨b, world⟩)

/-- **What requests leave**, one after the other. -/
def after (bench : Bench δ σ) (requests : List (Request C)) : Bench δ σ :=
  requests.foldl (fun bench request => (C.serve factory bench request).2) bench

/-- **The answers to requests**, one after the other. -/
def answers (bench : Bench δ σ) : List (Request C) → List (Except Error (Option β))
  | [] => []
  | request :: requests =>
    (C.serve factory bench request).1 :: answers (C.serve factory bench request).2 requests

/-- **A builder is used once**: requests consume it exactly if one of them is an attempt, whatever comes of it; what
follows an attempt is refused; the factory is called once at most, and by an attempt only; and a call that
fails leaves all as it was, so that it can be left out. -/
structure SingleUse (start : Bench δ σ) : Prop where
  consumed_iff : ∀ requests, (C.after factory start requests).builder.consumed = true ↔ .build ∈ requests
  refused : ∀ front rest, .build ∈ front →
    C.answers factory start (front ++ rest) =
        C.answers factory start front ++ rest.map (fun _ => .error (.builder (.consumed start.builder.title))) ∧
      C.after factory start (front ++ rest) = C.after factory start front
  not_called : ∀ requests, .build ∉ requests → (C.after factory start requests).world = start.world
  called_once : ∀ requests, (C.after factory start requests).world = start.world ∨
    ∃ given, (C.after factory start requests).world = ((factory given).run start.world).2
  no_trace : ∀ front call bound rest e, (C.serve factory (C.after factory start front) (.call call bound)).1 = .error e →
    C.after factory start (front ++ [.call call bound]) = C.after factory start front ∧
      C.after factory start (front ++ .call call bound :: rest) = C.after factory start (front ++ rest) ∧
      C.answers factory start (front ++ rest) =
        (C.answers factory start (front ++ .call call bound :: rest)).eraseIdx front.length

end Serving

section Requests

variable {C : BuilderClass δ κ α} {factory : α → StateM σ (Except Error β)} {bench : Bench δ σ}

/-! ## What a request does -/

/-- A consumed builder refuses every request and stays as it is. -/
theorem serve_of_consumed (h : bench.builder.consumed = true) (request : Request C) :
    C.serve factory bench request = (.error (.builder (.consumed bench.builder.title)), bench) := by
  cases request with
  | call call bound =>
    simp only [serve, run_perform, Builder.checkFields_eq_ok_iff.2 bound, BuilderM.run_change, if_pos h]
    rfl
  | build =>
    simp only [serve, attempt, BuilderM.attempt, BuilderM.run_handOver, if_pos h]
    rfl

/-- What a call makes of a builder that is not consumed: the draft is changed, or nothing is. -/
theorem serve_call (h : bench.builder.consumed = false) {call : κ} (bound : "self" ∉ C.names call) :
    C.serve factory bench (.call call bound) =
      match C.change call bench.builder.draft with
      | .ok draft => (.ok none, ⟨{ bench.builder with draft := draft }, bench.world⟩)
      | .error e => (.error e, bench) := by
  simp only [serve, run_perform, Builder.checkFields_eq_ok_iff.2 bound, BuilderM.run_change, h]
  cases C.change call bench.builder.draft <;> rfl

/-- What an attempt makes of a builder that is not consumed: it is consumed, and the factory is called if the draft
gives something to it. -/
theorem serve_build (h : bench.builder.consumed = false) :
    C.serve factory bench .build =
      match C.arguments bench.builder.draft with
      | .ok given => (((factory given).run bench.world).1.map some,
          ⟨{ bench.builder with consumed := true }, ((factory given).run bench.world).2⟩)
      | .error e => (.error e, ⟨{ bench.builder with consumed := true }, bench.world⟩) := by
  simp only [serve, attempt, BuilderM.attempt, BuilderM.run_handOver, h]
  cases C.arguments bench.builder.draft <;> rfl

variable (C factory bench) in
/-- **A call either fails and leaves all as it was, or changes the draft** of a builder that is not consumed. -/
theorem serve_call_cases {call : κ} (bound : "self" ∉ C.names call) :
    (∃ e, C.serve factory bench (.call call bound) = (.error e, bench)) ∨
      ∃ draft, C.serve factory bench (.call call bound) =
        (.ok none, ⟨{ bench.builder with draft := draft }, bench.world⟩) := by
  cases h : bench.builder.consumed with
  | true => exact .inl ⟨_, serve_of_consumed h _⟩
  | false =>
    rw [serve_call h bound]
    cases C.change call bench.builder.draft with
    | error e => exact .inl ⟨e, rfl⟩
    | ok draft => exact .inr ⟨draft, rfl⟩

variable (C factory bench) in
/-- **An attempt either is refused, or consumes the builder**, and then calls the factory or not. -/
theorem serve_build_cases :
    (bench.builder.consumed = true ∧ (C.serve factory bench .build).2 = bench) ∨
      (C.serve factory bench .build).2 = ⟨{ bench.builder with consumed := true }, bench.world⟩ ∨
      ∃ given, (C.serve factory bench .build).2 =
        ⟨{ bench.builder with consumed := true }, ((factory given).run bench.world).2⟩ := by
  cases h : bench.builder.consumed with
  | true =>
    rw [serve_of_consumed h]
    exact .inl ⟨rfl, rfl⟩
  | false =>
    rw [serve_build h]
    cases C.arguments bench.builder.draft with
    | error e => exact .inr (.inl rfl)
    | ok given => exact .inr (.inr ⟨given, rfl⟩)

theorem after_of_call_error {call : κ} {bound : "self" ∉ C.names call} {e : Error}
    (h : (C.serve factory bench (.call call bound)).1 = .error e) :
    (C.serve factory bench (.call call bound)).2 = bench := by
  obtain ⟨e', hcall⟩ | ⟨draft, hcall⟩ := serve_call_cases C factory bench bound
  · rw [hcall]
  · rw [hcall] at h
    cases h

/-- A call does not consume a builder, and does not call the factory. -/
theorem serve_call_keeps {call : κ} (bound : "self" ∉ C.names call) :
    (C.serve factory bench (.call call bound)).2.builder.consumed = bench.builder.consumed ∧
      (C.serve factory bench (.call call bound)).2.world = bench.world := by
  obtain ⟨e, h⟩ | ⟨draft, h⟩ := serve_call_cases C factory bench bound
  all_goals
    rw [h]
    exact ⟨rfl, rfl⟩

/-- An attempt consumes a builder, whatever comes of it. -/
theorem consumed_serve_build : (C.serve factory bench .build).2.builder.consumed = true := by
  obtain ⟨hconsumed, h⟩ | h | ⟨given, h⟩ := serve_build_cases C factory bench
  · rw [h]
    exact hconsumed
  all_goals rw [h]

/-- An attempt calls the factory once at most. -/
theorem world_serve_build : (C.serve factory bench .build).2.world = bench.world ∨
    ∃ given, (C.serve factory bench .build).2.world = ((factory given).run bench.world).2 := by
  obtain ⟨-, h⟩ | h | ⟨given, h⟩ := serve_build_cases C factory bench
  · exact .inl (by rw [h])
  · exact .inl (by rw [h])
  · exact .inr ⟨given, by rw [h]⟩

theorem title_serve (request : Request C) :
    (C.serve factory bench request).2.builder.title = bench.builder.title := by
  cases request with
  | call call bound =>
    obtain ⟨e, h⟩ | ⟨draft, h⟩ := serve_call_cases C factory bench bound
    all_goals rw [h]
  | build =>
    obtain ⟨-, h⟩ | h | ⟨given, h⟩ := serve_build_cases C factory bench
    all_goals rw [h]

/-! ## What requests do -/

theorem after_cons (request : Request C) (requests : List (Request C)) :
    C.after factory bench (request :: requests) =
      C.after factory (C.serve factory bench request).2 requests :=
  rfl

theorem after_append (front rest : List (Request C)) :
    C.after factory bench (front ++ rest) = C.after factory (C.after factory bench front) rest :=
  List.foldl_append

theorem answers_append (front rest : List (Request C)) :
    C.answers factory bench (front ++ rest) =
      C.answers factory bench front ++ C.answers factory (C.after factory bench front) rest := by
  induction front generalizing bench with
  | nil => rfl
  | cons request front ih => rw [List.cons_append, answers, answers, ih, List.cons_append, after_cons]

theorem length_answers (requests : List (Request C)) :
    (C.answers factory bench requests).length = requests.length := by
  induction requests generalizing bench with
  | nil => rfl
  | cons request requests ih => rw [answers, List.length_cons, ih, List.length_cons]

theorem title_after (requests : List (Request C)) :
    (C.after factory bench requests).builder.title = bench.builder.title := by
  induction requests generalizing bench with
  | nil => rfl
  | cons request requests ih => rw [after_cons, ih, title_serve]

theorem after_of_consumed (h : bench.builder.consumed = true) (requests : List (Request C)) :
    C.after factory bench requests = bench := by
  induction requests with
  | nil => rfl
  | cons request requests ih =>
    rw [after_cons, serve_of_consumed h]
    exact ih

theorem answers_of_consumed (h : bench.builder.consumed = true) (requests : List (Request C)) :
    C.answers factory bench requests =
      requests.map (fun _ => .error (.builder (.consumed bench.builder.title))) := by
  induction requests with
  | nil => rfl
  | cons request requests ih => rw [answers, serve_of_consumed h, ih, List.map_cons]

/-- **Requests consume a builder exactly if one of them is an attempt.** -/
theorem consumed_after (requests : List (Request C)) :
    (C.after factory bench requests).builder.consumed = true ↔
      bench.builder.consumed = true ∨ .build ∈ requests := by
  induction requests generalizing bench with
  | nil => simp [after]
  | cons request requests ih =>
    rw [after_cons, ih]
    cases request with
    | call call bound => simp [(serve_call_keeps bound).1]
    | build => simp [consumed_serve_build]

/-- **Without an attempt the factory is not called.** -/
theorem world_after_of_not_mem {requests : List (Request C)} (h : .build ∉ requests) :
    (C.after factory bench requests).world = bench.world := by
  induction requests generalizing bench with
  | nil => rfl
  | cons request requests ih =>
    rw [List.mem_cons, not_or] at h
    rw [after_cons, ih h.2]
    cases request with
    | call call bound => exact (serve_call_keeps bound).2
    | build => exact absurd rfl h.1

/-- **The factory is called once at most.** The first attempt may call it; what follows is refused. -/
theorem world_after (requests : List (Request C)) :
    (C.after factory bench requests).world = bench.world ∨
      ∃ given, (C.after factory bench requests).world = ((factory given).run bench.world).2 := by
  by_cases hmem : .build ∈ requests
  · obtain ⟨front, rest, rfl, hfront⟩ := List.eq_append_cons_of_mem hmem
    have hworld : (C.after factory bench front).world = bench.world := world_after_of_not_mem hfront
    rw [after_append, after_cons, after_of_consumed consumed_serve_build, ← hworld]
    exact world_serve_build
  · exact .inl (world_after_of_not_mem hmem)

end Requests

/-! ## Builders are used once -/

theorem singleUse_new (C : BuilderClass δ κ α) (factory : α → StateM σ (Except Error β)) (title : String)
    (draft : δ) (world : σ) : C.SingleUse factory ⟨.new title draft, world⟩ where
  consumed_iff requests := by
    rw [consumed_after]
    exact or_iff_right Bool.false_ne_true
  refused front rest hmem := by
    have hconsumed : (C.after factory ⟨.new title draft, world⟩ front).builder.consumed = true :=
      (consumed_after front).2 (.inr hmem)
    rw [answers_append, answers_of_consumed hconsumed, after_append, after_of_consumed hconsumed, title_after]
    exact ⟨rfl, rfl⟩
  not_called requests hmem := world_after_of_not_mem hmem
  called_once requests := world_after requests
  no_trace front call bound rest e hfail := by
    have hkept := after_of_call_error hfail
    refine ⟨?_, ?_, ?_⟩
    · rw [after_append]
      exact hkept
    · rw [after_append, after_append, after_cons, hkept]
    · rw [answers_append, answers_append, answers, hkept,
        List.eraseIdx_append_of_length_le (Nat.le_of_eq (length_answers front)), length_answers, Nat.sub_self,
        List.eraseIdx_cons_zero]

/-- **All builders are used once**: builders of named values, of points for any target, and of snapshots that allow
units or not, with any factory, from the time they are made. -/
theorem builders_single_use (world : σ) :
    (∀ (title : String) (factory : List (String × Datum) → StateM σ (Except Error β)),
      BuilderClass.fields.SingleUse factory ⟨.new title [], world⟩) ∧
    (∀ {γ : Type} (target : PointTarget γ) (factory : List Field → StateM σ (Except Error β)),
      (BuilderClass.points target).SingleUse factory ⟨PointBuilder.new target, world⟩) ∧
    (∀ (allowsUnit : Bool) (kind title : String)
      (factory : Metadata × List PointArgument → StateM σ (Except Error β)),
      (BuilderClass.snapshots allowsUnit kind).SingleUse factory ⟨.new title .empty, world⟩) := by
  refine ⟨?_, ?_, ?_⟩
  · intro title factory
    exact singleUse_new _ factory title [] world
  · intro γ target factory
    exact singleUse_new _ factory target.title PointDraft.empty world
  · intro allowsUnit kind title factory
    exact singleUse_new _ factory title SnapshotDraft.empty world

end BuilderClass

end Telemetry
