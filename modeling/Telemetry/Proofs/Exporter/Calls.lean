import Mathlib.Data.List.DropRight
import Telemetry.Exporter.Sink
import Telemetry.Proofs.Collection.Renamed

/-!
# Calls on exporters

An exporter is given collections and shut down in any order, and any of these calls may fail. What holds at
the beginning and is kept by every call that returns holds after all calls; what an exporter remembers of
the collections is that of the last one which it accepted.

## Main definitions

* `Call`, `Call.run`: the calls on an exporter, and the exporter after calls
* `Call.lastAccepted?`: the last accepted collection
* `Call.sinceShutdown`: the calls behind the last shutdown

## Main results

* `Call.run_induction`: what every call keeps, all calls keep
* `ScrapeExporter.exists_renamed_iff`, `ScrapeExporter.forall_points_renamed_iff`: when a text can be put in front of
  all names, and that it leaves the points alone
-/

namespace Telemetry

/-- **A call on an exporter.** -/
inductive Call where
  | accept (c : Collection)
  | shutdown

namespace Call

/-! ## Runs -/

section Run

variable {ε : Type} {step : ε → Call → Except Error ε} {e e' : ε}

/-- **An exporter after calls**, one after the other. A call that fails leaves it as it was. -/
def run (step : ε → Call → Except Error ε) (e : ε) (calls : List Call) : ε :=
  calls.foldl (fun e call => (Delivery.ofExcept e (step e call)).after) e

theorem run_append (calls more : List Call) :
    run step e (calls ++ more) = run step (run step e calls) more :=
  List.foldl_append

theorem run_concat_of_eq_ok {calls : List Call} {call : Call}
    (h : step (run step e calls) call = .ok e') : run step e (calls ++ [call]) = e' := by
  rw [run_append, run, List.foldl_cons, List.foldl_nil, h]
  rfl

theorem run_concat_of_eq_error {calls : List Call} {call : Call} {cause : Error}
    (h : step (run step e calls) call = .error cause) :
    run step e (calls ++ [call]) = run step e calls := by
  rw [run_append, run, List.foldl_cons, List.foldl_nil, h]
  rfl

/-- **What every call keeps, all calls keep.** -/
theorem run_induction {P : ε → Prop} (hstart : P e)
    (hstep : ∀ e call e', P e → step e call = .ok e' → P e') (calls : List Call) :
    P (run step e calls) := by
  induction calls using List.reverseRecOn with
  | nil => exact hstart
  | append_singleton calls call ih =>
    cases hcall : step (run step e calls) call with
    | error cause =>
      rw [run_concat_of_eq_error hcall]
      exact ih
    | ok e' =>
      rw [run_concat_of_eq_ok hcall]
      exact hstep _ call e' ih hcall

end Run

/-! ## Histories -/

section History

variable {keep : Collection → Option Collection} {calls : List Call}

def isAccept : Call → Bool
  | .accept _ => true
  | .shutdown => false

/-- What becomes of the collection that a call hands over, if it hands over one that is admitted. -/
def accepted? (keep : Collection → Option Collection) : Call → Option Collection
  | .accept c => keep c
  | .shutdown => none

/-- **The last accepted collection** among calls. -/
def lastAccepted? (keep : Collection → Option Collection) (calls : List Call) : Option Collection :=
  (calls.filterMap (accepted? keep)).getLast?

/-- **The calls behind the last shutdown**; all of them if there was none. -/
def sinceShutdown (calls : List Call) : List Call :=
  calls.rtakeWhile isAccept

def isStopped (calls : List Call) : Bool :=
  !calls.all isAccept

theorem lastAccepted?_concat (call : Call) :
    lastAccepted? keep (calls ++ [call]) = (accepted? keep call).or (lastAccepted? keep calls) := by
  rw [lastAccepted?, List.filterMap_append, List.getLast?_append]
  cases haccepted : accepted? keep call with
  | none => simp [haccepted, lastAccepted?]
  | some d => simp [haccepted]

@[simp] theorem sinceShutdown_concat_accept (c : Collection) :
    sinceShutdown (calls ++ [.accept c]) = sinceShutdown calls ++ [.accept c] :=
  List.rtakeWhile_concat_pos _ _ _ rfl

@[simp] theorem sinceShutdown_concat_shutdown : sinceShutdown (calls ++ [.shutdown]) = [] :=
  List.rtakeWhile_concat_neg _ _ _ Bool.false_ne_true

@[simp] theorem isStopped_concat_accept (c : Collection) :
    isStopped (calls ++ [.accept c]) = isStopped calls := by
  simp [isStopped, isAccept]

@[simp] theorem isStopped_concat_shutdown : isStopped (calls ++ [.shutdown]) = true := by
  simp [isStopped, isAccept]

end History

end Call

/-! ## A text in front of all names -/

namespace ScrapeExporter

/-- **When a text can be put in front of all names** of a collection: if it can be put in front of each. -/
theorem exists_renamed_iff {lead : String} {c : Collection} :
    (∃ d, renamed lead c = .ok d) ↔
      (lead ≠ "" → ∀ s ∈ c.snapshots, ∃ t, s.withNamePrefix lead = .ok t) := by
  unfold renamed
  by_cases hlead : lead = ""
  · simp [hlead]
  · have hempty : ¬lead.isEmpty = true := fun h => hlead (String.isEmpty_iff.1 h)
    rw [if_neg hempty, Collection.withNamePrefix_eq_changed, (Change.lawful_prefixed lead).exists_changed_iff,
      Change.apply_prefixed]
    exact ⟨fun h _ => h, fun h => h hlead⟩

/-- **A text in front of all names leaves the points alone.** -/
theorem forall_points_renamed_iff {lead : String} {c d : Collection} {P : List DataPoint → Prop}
    (h : renamed lead c = .ok d) : (∀ s ∈ d.snapshots, P s.points) ↔ ∀ s ∈ c.snapshots, P s.points := by
  have hall := exists_renamed_iff.1 ⟨d, h⟩
  unfold renamed at h
  split at h
  · cases h
    exact Iff.rfl
  · next hempty =>
    have hlead : lead ≠ "" := fun heq => hempty (String.isEmpty_iff.2 heq)
    have hmem {t : Snapshot} : t ∈ d.snapshots ↔ ∃ s ∈ c.snapshots, s.withNamePrefix lead = .ok t :=
      Collection.mem_of_changed h
    constructor
    · intro hd s hs
      obtain ⟨t, ht⟩ := hall hlead s hs
      rw [← (Snapshot.withNamePrefix_eq_ok_iff.1 ht).points]
      exact hd t (hmem.2 ⟨s, hs, ht⟩)
    · intro hc t ht
      obtain ⟨s, hs, hst⟩ := hmem.1 ht
      rw [(Snapshot.withNamePrefix_eq_ok_iff.1 hst).points]
      exact hc s hs

end ScrapeExporter

end Telemetry
