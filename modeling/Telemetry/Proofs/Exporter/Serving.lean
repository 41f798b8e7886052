import Telemetry.Proofs.Exporter.Calls
import Telemetry.Proofs.Family.Conversion

/-!
# What the scrape exporter serves

Whatever was called on a scrape exporter, it holds the last collection that it accepted, and serves the
families of that collection until it is shut down for the first time. Whether it accepts a collection does not
depend on what was called before.

## Main definitions

* `ScrapeExporter.after`: the scrape exporter after calls
* `ScrapeExporter.admitted?`: what the scrape exporter holds of a collection

## Main results

* `ScrapeExporter.accept_eq_ok_iff`: the scrape exporter after a collection that it accepts
* `ScrapeExporter.after_eq`: the scrape exporter after calls, in terms of these calls
* `ScrapeExporter.after_serves`: what it accepts, holds and serves after calls, and when it can be shut down
-/

namespace Telemetry

namespace ScrapeExporter

def step (e : ScrapeExporter) : Call → Except Error ScrapeExporter
  | .accept c => e.accept c
  | .shutdown => e.shutdown

/-- **The scrape exporter after calls**, from its beginning. -/
def after (lead : String) (calls : List Call) : ScrapeExporter :=
  Call.run step (new lead) calls

/-- **What the scrape exporter holds of a collection**: the collection with a text in front of all names, if
the text can be put there and no metric repeats labels. -/
def admitted? (lead : String) (c : Collection) : Option Collection :=
  match renamed lead c with
  | .error _ => none
  | .ok d => if ∀ s ∈ d.snapshots, s.duplicateLabels = [] then some d else none

variable {e e' : ScrapeExporter} {lead : String} {c d : Collection}

/-! ## One call -/

theorem duplicate?_eq_none_iff {snapshots : List Snapshot} :
    duplicate? snapshots = none ↔ ∀ s ∈ snapshots, s.duplicateLabels = [] := by
  simp [duplicate?, List.findSome?_eq_none_iff]

theorem admitted?_eq_some_iff :
    admitted? lead c = some d ↔
      renamed lead c = .ok d ∧ ∀ s ∈ d.snapshots, s.duplicateLabels = [] := by
  unfold admitted?
  cases renamed lead c with
  | error cause => simp
  | ok d' =>
    simp only [Option.ite_none_right_eq_some, Option.some.injEq, Except.ok.injEq]
    constructor
    · rintro ⟨hdistinct, rfl⟩
      exact ⟨rfl, hdistinct⟩
    · rintro ⟨rfl, hdistinct⟩
      exact ⟨hdistinct, rfl⟩

/-- **The scrape exporter after a collection that it accepts.** -/
theorem accept_eq_ok_iff :
    e.accept c = .ok e' ↔ ∃ d, admitted? e.lead c = some d ∧ e' = { e with held := d } := by
  simp only [accept, bind_eq_ok_iff, admitted?_eq_some_iff]
  constructor
  · rintro ⟨d, hrenamed, h⟩
    cases hduplicate : duplicate? d.snapshots with
    | some cause =>
      rw [hduplicate] at h
      cases h
    | none =>
      rw [hduplicate] at h
      cases h
      exact ⟨d, ⟨hrenamed, duplicate?_eq_none_iff.1 hduplicate⟩, rfl⟩
  · rintro ⟨d, ⟨hrenamed, hdistinct⟩, rfl⟩
    refine ⟨d, hrenamed, ?_⟩
    rw [duplicate?_eq_none_iff.2 hdistinct]
    rfl

/-- **Which collections are accepted**: those whose metrics can be renamed without that one of them repeats
labels. -/
theorem exists_accept_iff :
    (∃ e', e.accept c = .ok e') ↔
      (e.lead ≠ "" → ∀ s ∈ c.snapshots, ∃ t, s.withNamePrefix e.lead = .ok t) ∧
        ∀ d, renamed e.lead c = .ok d → ∀ s ∈ d.snapshots, s.duplicateLabels = [] := by
  simp only [accept_eq_ok_iff, admitted?_eq_some_iff, ← exists_renamed_iff]
  constructor
  · rintro ⟨_, d, ⟨hrenamed, hdistinct⟩, -⟩
    refine ⟨⟨d, hrenamed⟩, fun d' hrenamed' => ?_⟩
    rw [hrenamed] at hrenamed'
    cases hrenamed'
    exact hdistinct
  · rintro ⟨⟨d, hrenamed⟩, hdistinct⟩
    exact ⟨_, d, ⟨hrenamed, hdistinct d hrenamed⟩, rfl⟩

/-! ## All calls -/

/-- **The scrape exporter after calls**: it holds the last collection that it accepted, and is registered
until the first shutdown. -/
theorem after_eq (lead : String) (calls : List Call) :
    after lead calls =
      ⟨lead, (Call.lastAccepted? (admitted? lead) calls).getD .empty, !Call.isStopped calls⟩ := by
  induction calls using List.reverseRecOn with
  | nil => rfl
  | append_singleton calls call ih =>
    cases call with
    | accept c =>
      rw [Call.lastAccepted?_concat, Call.isStopped_concat_accept]
      cases hadmitted : admitted? lead c with
      | none =>
        have hrefused : ∃ cause, step (after lead calls) (.accept c) = .error cause := by
          cases hstep : step (after lead calls) (.accept c) with
          | error cause => exact ⟨cause, rfl⟩
          | ok e' =>
            obtain ⟨d, hd, -⟩ := accept_eq_ok_iff.1 hstep
            rw [ih, hadmitted] at hd
            cases hd
        obtain ⟨cause, hrefused⟩ := hrefused
        rw [after, Call.run_concat_of_eq_error hrefused, Call.accepted?, hadmitted]
        exact ih
      | some d =>
        have haccepted : step (after lead calls) (.accept c) = .ok { after lead calls with held := d } :=
          accept_eq_ok_iff.2 ⟨d, by rw [ih]; exact hadmitted, rfl⟩
        rw [after, Call.run_concat_of_eq_ok haccepted, Call.accepted?, hadmitted, ih]
        rfl
    | shutdown =>
      rw [Call.lastAccepted?_concat, Call.isStopped_concat_shutdown]
      have hshutdown : step (after lead calls) .shutdown =
          if Call.isStopped calls then .error .notRegistered
          else .ok { after lead calls with registered := false } := by
        rw [step, shutdown, ih]
        cases Call.isStopped calls <;> rfl
      by_cases hstopped : Call.isStopped calls = true
      · rw [if_pos hstopped] at hshutdown
        rw [after, Call.run_concat_of_eq_error hshutdown]
        refine ih.trans ?_
        rw [hstopped]
        rfl
      · rw [if_neg hstopped] at hshutdown
        rw [after, Call.run_concat_of_eq_ok hshutdown, ih]
        rfl

/-- **What the scrape exporter accepts, holds and serves after calls, and when it can be shut down.** A call
that fails changes nothing. -/
theorem after_serves (lead : String) (calls : List Call) :
    (∀ c, (∃ e', (after lead calls).accept c = .ok e') ↔
      (lead ≠ "" → ∀ s ∈ c.snapshots, ∃ t, s.withNamePrefix lead = .ok t) ∧
        ∀ d, renamed lead c = .ok d → ∀ s ∈ d.snapshots, s.duplicateLabels = []) ∧
      (∀ call cause, step (after lead calls) call = .error cause →
        after lead (calls ++ [call]) = after lead calls) ∧
      (after lead calls).held = (Call.lastAccepted? (admitted? lead) calls).getD .empty ∧
      (∀ families, (after lead calls).served = .ok families ↔
        if Call.isStopped calls then families = []
        else List.Forall₂ (fun s f => Family.ofSnapshot s = .ok f) (after lead calls).held.snapshots
          families) ∧
      (if Call.isStopped calls then
        ∃ cause, (after lead calls).shutdown = .error cause ∧ cause.category = .missingKey
      else ∃ e', (after lead calls).shutdown = .ok e') := by
  have hlead : (after lead calls).lead = lead := by rw [after_eq]
  have hregistered : (after lead calls).registered = !Call.isStopped calls := by rw [after_eq]
  refine ⟨fun c => ?_, fun call cause hcall => Call.run_concat_of_eq_error hcall, ?_, fun families => ?_, ?_⟩
  · rw [exists_accept_iff, hlead]
  · rw [after_eq]
  · unfold served
    rw [hregistered]
    by_cases hstopped : Call.isStopped calls = true
    · simp [hstopped, eq_comm]
    · simp only [hstopped, Bool.not_false, if_true, Bool.false_eq_true, if_false]
      exact Collection.families_eq_ok_iff
  · unfold shutdown
    rw [hregistered]
    by_cases hstopped : Call.isStopped calls = true
    · simp only [hstopped, Bool.not_true, Bool.false_eq_true, if_false, if_true]
      exact ⟨.notRegistered, rfl, rfl⟩
    · simp [hstopped]

end ScrapeExporter

end Telemetry
