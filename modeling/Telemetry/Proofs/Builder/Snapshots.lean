import Telemetry.Builder.Snapshot
import Telemetry.Proofs.Snapshot.Canonical
import Telemetry.Proofs.Steps

/-!
# Snapshots that are built

A builder of snapshots gathers a name, a help text, a unit and points apart from one another. So its calls may be
interleaved in any way, and what is built in the end is what the constructor makes of the name, the help text and the
unit that were given last, and of all points. The constructor puts points in order, so the order in which they were
added does not matter either. Only if several points do not fit the kind, it decides which of them an error names.

## Main definitions

* `SnapshotCall.name?`, `SnapshotCall.help?`, `SnapshotCall.unit?`, `SnapshotCall.point?`: what a call gives
* `SnapshotCall.Regathered`: calls that give the same in the end
* `Snapshot.construct`: direct construction
* `Snapshot.SameOutcome`: the same snapshot, or the same error but for the point it names
* `SnapshotBuilder.after`, `SnapshotBuilder.outcome`: a builder after calls, and what comes of calls and an attempt

## Main results

* `Snapshot.cause_of_make_eq_error`: why no snapshot of a kind is made
* `Snapshot.sameOutcome_of_perm`: construction has the same outcome for points in any order
* `SnapshotBuilder.after_eq`: what calls leave of a builder
* `SnapshotBuilder.build_eq_construct`: building is direct construction
-/

namespace Telemetry

/-! ## What calls give -/

namespace SnapshotCall

def name? : SnapshotCall → Option Datum
  | .name given => some given
  | _ => none

def help? : SnapshotCall → Option (Option String)
  | .help given => some given
  | _ => none

/-- The unit that a call gives, if the kind allows units. -/
def unit? (kind : Kind) : SnapshotCall → Option UnitArgument
  | .unit given => if kind.allowsUnit then some given else none
  | _ => none

def point? : SnapshotCall → Option PointArgument
  | .point given => some given
  | _ => none

theorem point?_eq_some_iff {call : SnapshotCall} {point : PointArgument} :
    call.point? = some point ↔ call = .point point := by
  cases call <;> simp [point?]

/-- **What was given last**, or what there was at the start. -/
def last {α : Type} (given : SnapshotCall → Option α) (start : α) (calls : List SnapshotCall) : α :=
  (calls.filterMap given).getLast?.getD start

theorem last_cons {α : Type} (given : SnapshotCall → Option α) (start : α) (call : SnapshotCall)
    (calls : List SnapshotCall) :
    last given start (call :: calls) = last given ((given call).getD start) calls := by
  unfold last
  rw [List.filterMap_cons]
  cases given call with
  | none => rfl
  | some a => simp [List.getLast?_cons]

/-- **Calls that give the same in the end**: what was given last is the same, and so are the points, in any order. -/
structure Regathered (kind : Kind) (calls other : List SnapshotCall) : Prop where
  name : last name? .null other = last name? .null calls
  help : last help? none other = last help? none calls
  unit : last (unit? kind) (.datum .null) other = last (unit? kind) (.datum .null) calls
  points : (other.filterMap point?).Perm (calls.filterMap point?)

end SnapshotCall

open SnapshotCall (name? help? unit? point? last)

/-! ## What a draft gathers -/

namespace SnapshotDraft

/-- **A draft with what a call gives.** -/
def gather (kind : Kind) (draft : SnapshotDraft) (call : SnapshotCall) : SnapshotDraft where
  name := call.name?.getD draft.name
  help := call.help?.getD draft.help
  unit := (call.unit? kind).getD draft.unit
  points := draft.points ++ call.point?.toList

variable {kind : Kind} {draft : SnapshotDraft}

@[simp] theorem gather_name (given : Datum) :
    draft.gather kind (.name given) = { draft with name := given } := by
  simp [gather, name?, help?, unit?, point?]

@[simp] theorem gather_help (given : Option String) :
    draft.gather kind (.help given) = { draft with help := given } := by
  simp [gather, name?, help?, unit?, point?]

@[simp] theorem gather_unit (given : UnitArgument) :
    draft.gather kind (.unit given) = if kind.allowsUnit then { draft with unit := given } else draft := by
  cases h : kind.allowsUnit <;> simp [gather, name?, help?, unit?, point?, h]

@[simp] theorem gather_point (given : PointArgument) :
    draft.gather kind (.point given) = { draft with points := draft.points ++ [given] } := by
  simp [gather, name?, help?, unit?, point?]

@[simp] theorem gather_set (names : List String) : draft.gather kind (.set names) = draft := by
  simp [gather, name?, help?, unit?, point?]

/-- **What calls gather**, each sort for itself. -/
theorem foldl_gather (kind : Kind) (draft : SnapshotDraft) (calls : List SnapshotCall) :
    calls.foldl (gather kind) draft =
      ⟨last name? draft.name calls, last help? draft.help calls, last (unit? kind) draft.unit calls,
        draft.points ++ calls.filterMap point?⟩ := by
  induction calls generalizing draft with
  | nil => simp [last]
  | cons call calls ih =>
    rw [List.foldl_cons, ih, SnapshotCall.last_cons, SnapshotCall.last_cons, SnapshotCall.last_cons,
      List.filterMap_cons]
    simp only [gather, SnapshotDraft.mk.injEq, true_and]
    cases call.point? <;> simp

end SnapshotDraft

/-! ## Direct construction -/

namespace Snapshot

/-- **Direct construction** from a name, a help text, a unit and points. -/
def construct (kind : Kind) (name : Datum) (help : Option String) (unit : UnitArgument)
    (points : List PointArgument) : Except Error Snapshot := do
  let metadata ← Metadata.make name help unit
  make (.text kind.word) (some metadata) (some points)

/-- **The same outcome** of two attempts to make a snapshot of a kind: the same snapshot, or the same error. If several
points do not fit the kind, two errors may name different ones of them. -/
def SameOutcome (kind : Kind) (x y : Except Error Snapshot) : Prop :=
  x = y ∨ ∃ metric found other,
    x = .error (.snapshot (.wrongPoint kind.word metric found kind.pointClass.title)) ∧
      y = .error (.snapshot (.wrongPoint kind.word metric other kind.pointClass.title))

theorem SameOutcome.eq_ok_iff {kind : Kind} {x y : Except Error Snapshot} (h : SameOutcome kind x y) (s : Snapshot) :
    x = .ok s ↔ y = .ok s := by
  rcases h with rfl | ⟨metric, found, other, rfl, rfl⟩
  · rfl
  · exact ⟨nofun, nofun⟩

variable {kind : Kind} {metadata : Metadata} {as bs : List PointArgument}

/-- **Why no snapshot of a kind is made**: the kind forbids the unit, or if it does not, a point does not fit. -/
theorem cause_of_make_eq_error {e : Error} (h : make (.text kind.word) (some metadata) (some as) = .error e) :
    (metadata.hasUnit && !kind.allowsUnit) = true ∧ e = .snapshot (.unitForbidden kind.title) ∨
      (metadata.hasUnit && !kind.allowsUnit) = false ∧
        ∃ a ∈ as, e = .snapshot (.wrongPoint kind.word metadata.name a.typeName kind.pointClass.title) := by
  unfold make at h
  rw [Kind.ofDatum?_word] at h
  dsimp only at h
  split at h
  · next a hunit ha =>
    cases h
    exact .inr ⟨hunit, a, List.mem_of_find?_eq_some ha, rfl⟩
  · next hnone =>
    cases hunit : metadata.hasUnit && !kind.allowsUnit with
    | true =>
      have hforbidden : ¬(metadata.hasUnit = true → kind.allowsUnit = true) := by simpa using hunit
      rw [ofPoints, dif_neg hforbidden] at h
      cases h
      exact .inl ⟨rfl, rfl⟩
    | false =>
      have hallowed : metadata.hasUnit = true → kind.allowsUnit = true := by simpa using hunit
      have hfound : (as.find? fun a => !a.isOf kind.pointClass) = none :=
        Option.eq_none_iff_forall_ne_some.2 fun a ha => hnone a hunit ha
      have hfit : ∀ p ∈ as.filterMap PointArgument.point?, p.pointClass = kind.pointClass := by
        intro p hp
        obtain ⟨a, ha, hpoint⟩ := List.mem_filterMap.1 hp
        obtain rfl := PointArgument.point?_eq_some_iff.1 hpoint
        simpa [PointArgument.isOf] using List.find?_eq_none.1 hfound _ ha
      obtain ⟨s, hs⟩ := exists_ofPoints_iff.2 ⟨hallowed, hfit⟩
      rw [hs] at h
      cases h

/-- **Construction has the same outcome for points in any order**, if all timestamps are numbers. -/
theorem sameOutcome_of_perm (hperm : as.Perm bs) (htimed : ∀ p, .point p ∈ as → p.isTimed = true) (name : Datum)
    (help : Option String) (unit : UnitArgument) :
    SameOutcome kind (construct kind name help unit as) (construct kind name help unit bs) := by
  unfold construct
  cases Metadata.make name help unit with
  | error e => exact .inl rfl
  | ok metadata =>
    have hok := make_eq_ok_iff_of_perm hperm htimed (.text kind.word) (some metadata)
    show SameOutcome kind (make _ _ (some as)) (make _ _ (some bs))
    cases hx : make (.text kind.word) (some metadata) (some as) with
    | ok s => exact .inl ((hok s).1 hx).symm
    | error e =>
      cases hy : make (.text kind.word) (some metadata) (some bs) with
      | ok s => cases hx.symm.trans ((hok s).2 hy)
      | error e' =>
        rcases cause_of_make_eq_error hx with ⟨hunit, rfl⟩ | ⟨hunit, a, -, rfl⟩ <;>
          rcases cause_of_make_eq_error hy with ⟨hunit', rfl⟩ | ⟨hunit', b, -, rfl⟩
        · exact .inl rfl
        · cases hunit.symm.trans hunit'
        · cases hunit.symm.trans hunit'
        · exact .inr ⟨_, _, _, rfl, rfl⟩

end Snapshot

/-! ## What calls leave of a builder -/

namespace SnapshotBuilder

variable {kind : Kind} {b : SnapshotBuilder} {calls : List SnapshotCall}

/-- **A builder after calls**, one after the other. A call that fails leaves it as it was. -/
def after (kind : Kind) (b : SnapshotBuilder) (calls : List SnapshotCall) : SnapshotBuilder :=
  calls.foldl (fun b call => match b.call kind call with
    | .ok b' => b'
    | .error _ => b) b

/-- **What comes of calls and an attempt.** -/
def outcome (kind : Kind) (calls : List SnapshotCall) : Except Error Snapshot :=
  ((new.after kind calls).build kind).1

/-- **A call gathers what it gives**, or it fails and gives nothing. -/
theorem call_cases (kind : Kind) (hb : b.consumed = false) (call : SnapshotCall) :
    b.call kind call = .ok { b with draft := b.draft.gather kind call } ∨
      (∃ e, b.call kind call = .error e) ∧ b.draft.gather kind call = b.draft := by
  have hchange (f : SnapshotDraft → Except Error SnapshotDraft) :
      b.change f = f b.draft >>= fun draft => .ok { b with draft := draft } := by
    rw [Builder.change_eq, hb, if_neg Bool.false_ne_true]
    rfl
  cases call with
  | name given =>
    rw [SnapshotDraft.gather_name]
    exact .inl (hchange _)
  | help given =>
    rw [SnapshotDraft.gather_help]
    exact .inl (hchange _)
  | point given =>
    rw [SnapshotDraft.gather_point]
    exact .inl (hchange _)
  | unit given =>
    rw [call, SnapshotBuilder.unit, hchange, SnapshotDraft.setUnit, SnapshotDraft.gather_unit]
    cases kind.allowsUnit with
    | true => exact .inl rfl
    | false => exact .inr ⟨⟨_, rfl⟩, rfl⟩
  | set names =>
    rw [call, SnapshotBuilder.set, hchange, SnapshotDraft.gather_set]
    cases Builder.checkFields "Builder" names with
    | ok => exact .inl rfl
    | error e => exact .inr ⟨⟨e, rfl⟩, rfl⟩

/-- **What calls leave of a builder.** -/
theorem after_eq (hb : b.consumed = false) (calls : List SnapshotCall) :
    b.after kind calls = { b with draft := calls.foldl (SnapshotDraft.gather kind) b.draft } := by
  induction calls generalizing b with
  | nil => rfl
  | cons call calls ih =>
    rw [after, List.foldl_cons, List.foldl_cons]
    rcases call_cases kind hb call with hcall | ⟨⟨e, hcall⟩, hnothing⟩
    · rw [hcall]
      exact ih hb
    · rw [hcall, hnothing]
      exact ih hb

/-- **When a unit is refused.** -/
theorem unit_eq_error_iff (hb : b.consumed = false) (unit : UnitArgument) (e : Error) :
    b.unit kind unit = .error e ↔ kind.allowsUnit = false ∧ e = .snapshot (.unitForbidden kind.title) := by
  rw [SnapshotBuilder.unit, Builder.change_eq, hb, if_neg Bool.false_ne_true, SnapshotDraft.setUnit]
  cases kind.allowsUnit with
  | true => exact ⟨nofun, fun h => nomatch h.1⟩
  | false => exact ⟨fun h => ⟨rfl, (Except.error.inj h).symm⟩, fun h => h.2 ▸ rfl⟩

/-! ## Building and direct construction -/

theorem outcome_eq (kind : Kind) (calls : List SnapshotCall) :
    outcome kind calls = Snapshot.construct kind (last name? .null calls) (last help? none calls)
      (last (unit? kind) (.datum .null) calls) (calls.filterMap point?) := by
  rw [outcome, after_eq rfl, build, Builder.build_eq, SnapshotDraft.foldl_gather]
  show SnapshotDraft.make kind _ = _
  unfold SnapshotDraft.make SnapshotDraft.arguments Snapshot.construct
  rw [bind_assoc]
  rfl

/-- **Building is direct construction**, if all timestamps are numbers. At any moment a unit is refused exactly if the
kind forbids units. Otherwise the outcome is that of the constructor for the name, the help text and the unit given
last and for all points: exactly, if it is given the points as they were added, and the same for points in any other
order. So calls that give the same in the end have the same outcome, whichever way they are interleaved. -/
theorem build_eq_construct (kind : Kind) {calls : List SnapshotCall}
    (htimed : ∀ p, .point (.point p) ∈ calls → p.isTimed = true) :
    (∀ unit, ((∃ e, (new.after kind calls).unit kind unit = .error e) ↔ kind.allowsUnit = false) ∧
      ∀ e, (new.after kind calls).unit kind unit = .error e → e.category = .invalid) ∧
    outcome kind calls = Snapshot.construct kind (last name? .null calls) (last help? none calls)
      (last (unit? kind) (.datum .null) calls) (calls.filterMap point?) ∧
    (∀ points, (calls.filterMap point?).Perm points →
      Snapshot.SameOutcome kind (outcome kind calls)
        (Snapshot.construct kind (last name? .null calls) (last help? none calls)
          (last (unit? kind) (.datum .null) calls) points)) ∧
    ∀ other, SnapshotCall.Regathered kind calls other →
      Snapshot.SameOutcome kind (outcome kind calls) (outcome kind other) := by
  have htimed' : ∀ p, .point p ∈ calls.filterMap point? → p.isTimed = true := by
    intro p hp
    obtain ⟨call, hcall, hpoint⟩ := List.mem_filterMap.1 hp
    exact htimed p (SnapshotCall.point?_eq_some_iff.1 hpoint ▸ hcall)
  have hunit (unit : UnitArgument) (e : Error) : (new.after kind calls).unit kind unit = .error e ↔
      kind.allowsUnit = false ∧ e = .snapshot (.unitForbidden kind.title) :=
    unit_eq_error_iff (by rw [after_eq rfl]; rfl) unit e
  refine ⟨fun unit => ⟨?_, fun e he => ?_⟩, outcome_eq kind calls, fun points hpoints => ?_, fun other hother => ?_⟩
  · simp only [hunit, exists_and_left, exists_eq, and_true]
  · rw [((hunit unit e).1 he).2]
    rfl
  · rw [outcome_eq]
    exact Snapshot.sameOutcome_of_perm hpoints htimed' _ _ _
  · rw [outcome_eq, outcome_eq, hother.name, hother.help, hother.unit]
    exact Snapshot.sameOutcome_of_perm hother.points.symm htimed' _ _ _

/-- A lag in seconds, at two zeros of different sorts. -/
def lagFirst : List SnapshotCall :=
  [.name (.text "lag"), .point (.point (.gauge (.whole 0))), .unit (.unit .seconds),
    .point (.point (.gauge .zeroReal))]

/-- The same, with the points in the other order and a name that is given up. -/
def pointsFirst : List SnapshotCall :=
  [.name (.text "drift"), .point (.point (.gauge .zeroReal)), .point (.point (.gauge (.whole 0))),
    .unit (.unit .seconds), .name (.text "lag")]

theorem build_eq_construct_lag :
    (∀ p, .point (.point p) ∈ lagFirst → p.isTimed = true) ∧
      SnapshotCall.Regathered .gauge lagFirst pointsFirst ∧
      ∃ s, outcome .gauge lagFirst = .ok s ∧ outcome .gauge pointsFirst = .ok s ∧ s.name = "lag" ∧
        s.metadata.unit = some .seconds := by
  have htimed : ∀ p, .point (.point p) ∈ lagFirst → p.isTimed = true := by
    simp only [lagFirst, List.mem_cons, SnapshotCall.point.injEq, PointArgument.point.injEq, reduceCtorEq,
      List.not_mem_nil, or_false, false_or]
    rintro p (rfl | rfl) <;> rfl
  have hsame : SnapshotCall.Regathered .gauge lagFirst pointsFirst :=
    ⟨rfl, rfl, rfl, List.Perm.swap (PointArgument.point (.gauge (.whole 0))) (.point (.gauge .zeroReal)) []⟩
  obtain ⟨-, hbuilt, -, hother⟩ := build_eq_construct .gauge htimed
  exact ⟨htimed, hsame, _, hbuilt, ((hother pointsFirst hsame).eq_ok_iff _).1 hbuilt, rfl, rfl⟩

end SnapshotBuilder

end Telemetry
