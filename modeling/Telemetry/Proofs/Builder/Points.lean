import Telemetry.Builder.Point
import Telemetry.Proofs.Point.Assigned
import Telemetry.Proofs.Steps

/-!
# Points that are built

A builder of points gathers three things apart from one another: a label set, single labels, and fields. So its calls
may be interleaved in any way, and the point that is built in the end is the one that the constructor makes of what
was gathered: the fields assigned last, and the label set handed over last with the single labels added. A label
set among the fields has no part in it.

## Main definitions

* `PointCall.given`, `PointCall.labelSet?`, `PointCall.single?`: what a call gives
* `PointCall.Interleaved`: calls that give the same, whichever way they are interleaved
* `PointBuilder.after`: a builder after calls, of which some may fail
* `PointBuilder.outcome`: what comes of calls and an attempt

## Main results

* `PointBuilder.call_eq_ok_iff`, `PointBuilder.foldlM_call_eq_ok_iff`, `PointBuilder.after_eq`: what calls leave of a
  builder
* `PointBuilder.build_eq_make`: building is direct construction
* `PointBuilder.set_labels_lost`: what becomes of a label set among the fields
-/

namespace Telemetry

variable {β : Type}

/-- A label set with single labels added to it, if there are any. -/
def Labels.withSingles (labels : Labels) (singles : List (Datum × Datum)) : Except Error Labels :=
  if singles.isEmpty then .ok labels
  else do labels.merge (← Labels.ofPairs (singles.map (·.1)) (singles.map (·.2)))

/-! ## What calls give -/

namespace PointCall

def given : PointCall → List Field
  | .set fields => fields
  | .created millis => [.created millis]
  | .scrape millis => [.scrape millis]
  | .labels _ | .label _ _ => []

def labelSet? : PointCall → Option LabelArgument
  | .labels l => some l
  | _ => none

def single? : PointCall → Option (Datum × Datum)
  | .label name value => some (name, value)
  | _ => none

/-- The label set that a call leaves, if it hands one over. -/
def held? (call : PointCall) : Option Labels :=
  call.labelSet?.bind fun l => l.resolve.toOption

/-- **The label set handed over last**, or the empty one. -/
def lastLabels (calls : List PointCall) : Labels :=
  (calls.filterMap held?).getLast?.getD .empty

/-- Whether a builder that is not consumed accepts a call. -/
def isAccepted (t : PointTarget β) (call : PointCall) : Bool :=
  call.labelSet?.all (fun l => l.resolve.isOk) && call.given.all fun f => f.name != "self" && t.accepts f.name

/-- **Calls that give the same**, whichever way they are interleaved. -/
structure Interleaved (calls other : List PointCall) : Prop where
  labelSets : other.filterMap labelSet? = calls.filterMap labelSet?
  singles : other.filterMap single? = calls.filterMap single?
  given : other.flatMap given = calls.flatMap given

/-- **The fields that accepted calls give**, other than the labels. -/
def others (t : PointTarget β) (calls : List PointCall) : List Field :=
  ((calls.filter (isAccepted t)).flatMap given).filter fun f => f.name != "labels"

variable {t : PointTarget β} {act : PointCall} {calls other front back : List PointCall}

/-- The names of the fields that a call gives are set by name, but for those of timestamps. -/
theorem mem_names_iff {name : String} (hcreated : name ≠ "created_timestamp_millis")
    (hscrape : name ≠ "scrape_timestamp_millis") : name ∈ act.names ↔ ∃ f ∈ act.given, f.name = name := by
  cases act <;> simp [names, given, Field.name, hcreated.symm, hscrape.symm]

/-- What a builder that is not consumed asks of a call. -/
theorem isAccepted_iff :
    act.isAccepted t = true ↔ "self" ∉ act.names ∧
      act.labelSet?.all (fun l => l.resolve.isOk) = true ∧ ∀ f ∈ act.given, t.accepts f.name = true := by
  rw [mem_names_iff (by decide) (by decide), isAccepted, Bool.and_eq_true, List.all_eq_true]
  simp only [Bool.and_eq_true, bne_iff_ne, not_exists, not_and]
  constructor
  · rintro ⟨hlabels, hgiven⟩
    exact ⟨fun f hf => (hgiven f hf).1, hlabels, fun f hf => (hgiven f hf).2⟩
  · rintro ⟨hself, hlabels, hgiven⟩
    exact ⟨hlabels, fun f hf => ⟨hself f hf, hgiven f hf⟩⟩

/-- The label sets that calls leave are those that they hand over. -/
theorem filterMap_held? (calls : List PointCall) :
    calls.filterMap held? = (calls.filterMap labelSet?).filterMap fun l => l.resolve.toOption :=
  (List.filterMap_filterMap ..).symm

/-- Whether calls are accepted depends on what they give, and not on how they are interleaved. -/
theorem forall_isAccepted_iff :
    (∀ call ∈ calls, call.isAccepted t = true) ↔
      (∀ l ∈ calls.filterMap labelSet?, l.resolve.isOk = true) ∧
        ∀ f ∈ calls.flatMap given, f.name ≠ "self" ∧ t.accepts f.name = true := by
  simp only [isAccepted, Bool.and_eq_true, Option.all_eq_true, List.all_eq_true, bne_iff_ne, List.mem_filterMap,
    List.mem_flatMap]
  constructor
  · intro h
    refine ⟨?_, ?_⟩
    · rintro l ⟨call, hcall, hl⟩
      exact (h call hcall).1 l hl
    · rintro f ⟨call, hcall, hf⟩
      exact (h call hcall).2 f hf
  · rintro ⟨hlabelSets, hgiven⟩ call hcall
    exact ⟨fun l hl => hlabelSets l ⟨call, hcall, hl⟩, fun f hf => hgiven f ⟨call, hcall, hf⟩⟩

theorem Interleaved.forall_isAccepted (h : Interleaved calls other)
    (hcalls : ∀ call ∈ calls, call.isAccepted t = true) : ∀ call ∈ other, call.isAccepted t = true := by
  rw [forall_isAccepted_iff] at hcalls ⊢
  rwa [h.labelSets, h.given]

/-- A call that is refused leaves no label set and no single label. -/
theorem filterMap_filter_isAccepted (calls : List PointCall) :
    (calls.filter (isAccepted t)).filterMap held? = calls.filterMap held? ∧
      (calls.filter (isAccepted t)).filterMap single? = calls.filterMap single? := by
  rw [List.filterMap_filter, List.filterMap_filter]
  refine ⟨List.filterMap_congr fun call _ => ?_, List.filterMap_congr fun call _ => ?_⟩
  · cases call with
    | labels l => cases h : l.resolve <;> simp [held?, labelSet?, isAccepted, given, h, Except.isOk, Except.toBool,
        Except.toOption]
    | _ => simp [held?, labelSet?]
  · cases call with
    | label name value => simp [single?, isAccepted, labelSet?, given]
    | _ => simp [single?]

/-- A call that gives no other fields can be left out, as far as these go. -/
theorem others_insert (hact : act.given.filter (fun f => f.name != "labels") = []) :
    others t (front ++ act :: back) = others t (front ++ back) := by
  unfold others
  rw [List.filter_append, List.filter_append, List.filter_cons]
  split
  · simp [hact]
  · rfl

/-- The label set handed over last is that of the calls behind, if they hand over any. -/
theorem lastLabels_append (front back : List PointCall) :
    lastLabels (front ++ back) = (back.filterMap held?).getLast?.getD (lastLabels front) := by
  unfold lastLabels
  rw [List.filterMap_append, List.getLast?_append]
  cases (back.filterMap held?).getLast? <;> rfl

/-- If calls behind hand over a label set, those in front do not matter. -/
theorem lastLabels_eq_of_held (h : ∃ act ∈ back, act.held?.isSome = true) (front : List PointCall) :
    lastLabels (front ++ back) = lastLabels back := by
  obtain ⟨act, hact, hheld⟩ := h
  obtain ⟨labels, hlabels⟩ := Option.isSome_iff_exists.1 hheld
  have hmem : labels ∈ back.filterMap held? := List.mem_filterMap.2 ⟨act, hact, hlabels⟩
  rw [lastLabels_append]
  unfold lastLabels
  cases hlast : (back.filterMap held?).getLast? with
  | none =>
    rw [List.getLast?_eq_none_iff.1 hlast] at hmem
    cases hmem
  | some last => rfl

/-- If calls behind hand over no label set, it is that of those in front. -/
theorem lastLabels_append_of_not_held (h : ¬ ∃ act ∈ back, act.held?.isSome = true) :
    lastLabels (front ++ back) = lastLabels front := by
  have hnone : back.filterMap held? = [] := by
    refine List.filterMap_eq_nil_iff.2 fun act hact => ?_
    exact Option.not_isSome_iff_eq_none.1 fun hheld => h ⟨act, hact, hheld⟩
  rw [lastLabels_append, hnone]
  rfl

theorem lastLabels_insert (hact : act.held? = none) :
    lastLabels (front ++ act :: back) = lastLabels (front ++ back) := by
  rw [lastLabels_append, lastLabels_append, List.filterMap_cons_none hact]

theorem singles_insert (hact : act.single? = none) :
    (front ++ act :: back).filterMap single? = (front ++ back).filterMap single? := by
  rw [List.filterMap_append, List.filterMap_cons_none hact, List.filterMap_append]

end PointCall

/-! ## What a draft gathers -/

namespace PointDraft

variable {t : PointTarget β} {draft draft' : PointDraft} {more : List Field} {act : PointCall}

/-- **A draft with what a call gives.** -/
def gather (draft : PointDraft) (act : PointCall) : PointDraft where
  fields := Field.insertAll draft.fields act.given
  labels := act.held?.getD draft.labels
  extra := draft.extra ++ act.single?.toList

/-- More fields are taken if the target has them all. -/
theorem setFields_eq_ok_iff :
    setFields t more draft = .ok draft' ↔
      (∀ f ∈ more, t.accepts f.name = true) ∧
        draft' = { draft with fields := Field.insertAll draft.fields more } := by
  unfold setFields PointTarget.unknownField?
  cases h : (more.map Field.name).find? fun name => !t.accepts name with
  | none =>
    have hall : ∀ f ∈ more, t.accepts f.name = true := by simpa using h
    exact ⟨fun heq => ⟨hall, (Except.ok.inj heq).symm⟩, fun heq => congrArg Except.ok heq.2.symm⟩
  | some name =>
    obtain ⟨f, hf, rfl⟩ := List.mem_map.1 (List.mem_of_find?_eq_some h)
    have hname : t.accepts f.name = false := by simpa using List.find?_some h
    exact ⟨nofun, fun heq => absurd (heq.1 f hf) (by simp [hname])⟩

/-- What a call makes of a draft, if it makes anything of it. -/
theorem change_eq_ok_iff :
    PointDraft.change t act draft = .ok draft' ↔
      (act.labelSet?.all (fun l => l.resolve.isOk) = true ∧ ∀ f ∈ act.given, t.accepts f.name = true) ∧
        draft' = draft.gather act := by
  cases act with
  | set fields =>
    rw [PointDraft.change, setFields_eq_ok_iff]
    simp [PointCall.labelSet?, PointCall.given, PointCall.held?, PointCall.single?, gather]
  | created millis =>
    rw [PointDraft.change, setFields_eq_ok_iff]
    simp [PointCall.labelSet?, PointCall.given, PointCall.held?, PointCall.single?, gather]
  | scrape millis =>
    rw [PointDraft.change, setFields_eq_ok_iff]
    simp [PointCall.labelSet?, PointCall.given, PointCall.held?, PointCall.single?, gather]
  | label name value =>
    rw [PointDraft.change, addLabel, Except.ok.injEq, eq_comm]
    simp [PointCall.labelSet?, PointCall.given, PointCall.held?, PointCall.single?, gather, Field.insertAll]
  | labels l =>
    rw [PointDraft.change, setLabels, bind_eq_ok_iff]
    cases h : l.resolve with
    | error e => simp [PointCall.labelSet?, h, Except.isOk, Except.toBool]
    | ok labels =>
      simp [PointCall.labelSet?, PointCall.given, PointCall.held?, PointCall.single?, gather, Field.insertAll, h,
        Except.isOk, Except.toBool, Except.toOption, pure, Except.pure, @eq_comm _ draft']

/-- **What calls gather**, each sort for itself. -/
theorem foldl_gather (draft : PointDraft) (calls : List PointCall) :
    calls.foldl gather draft =
      ⟨Field.insertAll draft.fields (calls.flatMap PointCall.given),
        (calls.filterMap PointCall.held?).getLast?.getD draft.labels,
        draft.extra ++ calls.filterMap PointCall.single?⟩ := by
  induction calls generalizing draft with
  | nil => simp [Field.insertAll]
  | cons call calls ih =>
    rw [List.foldl_cons, ih, List.flatMap_cons, List.filterMap_cons, List.filterMap_cons]
    simp only [gather, PointDraft.mk.injEq]
    refine ⟨?_, ?_, ?_⟩
    · rw [Field.insertAll, Field.insertAll, Field.insertAll, List.foldl_append]
    · cases call.held? with
      | none => rfl
      | some labels => simp [List.getLast?_cons]
    · cases call.single? <;> simp

/-- What becomes of a draft whose label set has been handed over last. -/
theorem make_foldl_gather {c : PointClass} {calls : List PointCall}
    (hcalls : ∀ call ∈ calls, call.isAccepted (.ofClass c) = true) :
    (calls.foldl gather .empty).make (.ofClass c) = (do
      let labels ← (PointCall.lastLabels calls).withSingles (calls.filterMap PointCall.single?)
      DataPoint.make c (.labels (.labels labels) ::
        Field.latest ((calls.flatMap PointCall.given).filter fun f => f.name != "labels"))) := by
  have haccepts : ∀ f ∈ calls.flatMap PointCall.given, c.accepts f.name = true :=
    fun f hf => ((PointCall.forall_isAccepted_iff.1 hcalls).2 f hf).2
  rw [foldl_gather]
  simp only [← DataPoint.make_insert_labels haccepts]
  show (allLabels _ >>= fun labels => pure _) >>= DataPoint.make c = _
  rw [bind_assoc]
  rfl

end PointDraft

/-! ## What calls leave of a builder -/

namespace PointBuilder

variable {t : PointTarget β} {b b' : PointBuilder} {act : PointCall} {calls : List PointCall}

/-- **A builder after calls**, one after the other. A call that fails leaves it as it was. -/
def after (t : PointTarget β) (b : PointBuilder) (calls : List PointCall) : PointBuilder :=
  calls.foldl (fun b act => match b.call t act with
    | .ok b' => b'
    | .error _ => b) b

/-- **What comes of calls and an attempt.** -/
def outcome (t : PointTarget β) (calls : List PointCall) : Except Error β :=
  (((new t).after t calls).build t).1

/-- **What an accepted call leaves of a builder.** No other call succeeds. -/
theorem call_eq_ok_iff (hb : b.consumed = false) :
    b.call t act = .ok b' ↔ act.isAccepted t = true ∧ b' = { b with draft := b.draft.gather act } := by
  rw [call_eq, BuilderClass.call_eq, PointCall.isAccepted_iff, Builder.change_eq, hb, if_neg Bool.false_ne_true,
    bind_eq_ok_iff]
  simp only [bind_eq_ok_iff]
  constructor
  · rintro ⟨⟨⟩, hself, draft', hchange, h⟩
    obtain ⟨hrest, rfl⟩ := PointDraft.change_eq_ok_iff.1 hchange
    exact ⟨⟨Builder.checkFields_eq_ok_iff.1 hself, hrest⟩, (Except.ok.inj h).symm⟩
  · rintro ⟨⟨hself, hrest⟩, rfl⟩
    exact ⟨(), Builder.checkFields_eq_ok_iff.2 hself, _, PointDraft.change_eq_ok_iff.2 ⟨hrest, rfl⟩, rfl⟩

/-- **What calls leave of a builder** if all of them are accepted. -/
theorem foldlM_call_eq_ok_iff (hb : b.consumed = false) :
    calls.foldlM (PointBuilder.call t) b = .ok b' ↔
      (∀ act ∈ calls, act.isAccepted t = true) ∧ b' = { b with draft := calls.foldl PointDraft.gather b.draft } := by
  induction calls generalizing b with
  | nil =>
    rw [List.foldlM_nil]
    constructor
    · intro h
      exact ⟨nofun, (Except.ok.inj h).symm⟩
    · rintro ⟨-, rfl⟩
      rfl
  | cons act calls ih =>
    have hrest : calls.foldlM (PointBuilder.call t) { b with draft := b.draft.gather act } = .ok b' ↔ _ := ih hb
    rw [List.foldlM_cons, bind_eq_ok_iff, List.forall_mem_cons, List.foldl_cons]
    simp only [call_eq_ok_iff hb]
    constructor
    · rintro ⟨_, ⟨haccepted, rfl⟩, h⟩
      exact ⟨⟨haccepted, (hrest.1 h).1⟩, (hrest.1 h).2⟩
    · rintro ⟨⟨haccepted, hcalls⟩, h⟩
      exact ⟨_, ⟨haccepted, rfl⟩, hrest.2 ⟨hcalls, h⟩⟩

/-- **What calls leave of a builder**: those that are refused leave nothing. -/
theorem after_eq (hb : b.consumed = false) (calls : List PointCall) :
    b.after t calls =
      { b with draft := (calls.filter fun act => act.isAccepted t).foldl PointDraft.gather b.draft } := by
  induction calls generalizing b with
  | nil => rfl
  | cons act calls ih =>
    rw [after, List.foldl_cons]
    by_cases h : act.isAccepted t = true
    · rw [(call_eq_ok_iff hb).2 ⟨h, rfl⟩, List.filter_cons_of_pos h, List.foldl_cons]
      exact ih hb
    · rw [List.filter_cons_of_neg h]
      cases hact : b.call t act with
      | error e => exact ih hb
      | ok b' => exact absurd ((call_eq_ok_iff hb).1 hact).1 h

theorem build_of_not_consumed (hb : b.consumed = false) : (b.build t).1 = b.draft.make t := by
  rw [build, Builder.build_eq, hb]
  rfl

/-! ## Building and direct construction -/

/-- **Building is direct construction**: if all calls are accepted, and none sets a field for the labels, the
constructor is given the fields assigned last, and the label set handed over last with the single labels added.
Calls that give the same leave the same builder, whichever way they are interleaved. -/
theorem build_eq_make {c : PointClass}
    (hcalls : calls.foldlM (PointBuilder.call (.ofClass c)) (PointBuilder.new (.ofClass c)) = .ok b)
    (hlabels : ∀ act ∈ calls, "labels" ∉ act.names) :
    (b.build (.ofClass c)).1 = (do
      let labels ← (PointCall.lastLabels calls).withSingles (calls.filterMap PointCall.single?)
      DataPoint.make c (.labels (.labels labels) :: Field.latest (calls.flatMap PointCall.given))) ∧
    ∀ other, PointCall.Interleaved calls other →
      other.foldlM (PointBuilder.call (.ofClass c)) (PointBuilder.new (.ofClass c)) = .ok b := by
  obtain ⟨haccepted, rfl⟩ := (foldlM_call_eq_ok_iff rfl).1 hcalls
  have hgiven : ∀ f ∈ calls.flatMap PointCall.given, (f.name != "labels") = true := by
    intro f hf
    obtain ⟨act, hact, hf⟩ := List.mem_flatMap.1 hf
    refine bne_iff_ne.2 fun hname => hlabels act hact ?_
    exact (PointCall.mem_names_iff (by decide) (by decide)).2 ⟨f, hf, hname⟩
  refine ⟨?_, fun other hother => ?_⟩
  · rw [build_of_not_consumed rfl]
    show (calls.foldl PointDraft.gather .empty).make _ = _
    rw [PointDraft.make_foldl_gather haccepted, List.filter_eq_self.2 hgiven]
  · refine (foldlM_call_eq_ok_iff rfl).2 ⟨hother.forall_isAccepted haccepted, ?_⟩
    rw [PointDraft.foldl_gather, PointDraft.foldl_gather, PointCall.filterMap_held?, PointCall.filterMap_held?,
      hother.labelSets, hother.singles, hother.given]

def environment : Labels :=
  ⟨[⟨"env", "prod"⟩], by decide, by decide⟩

/-- A region, an amount that is assigned twice, and an environment. -/
def regionFirst : List PointCall :=
  [.label (.text "region") (.text "eu"), .set [.value (.whole 1)], .labels (.labels environment),
    .scrape (.whole 5), .set [.value (.whole 2)]]

def environmentFirst : List PointCall :=
  [.labels (.labels environment), .set [.value (.whole 1), .scrape (.whole 5)], .set [.value (.whole 2)],
    .label (.text "region") (.text "eu")]

/-- A gauge with a region and an environment is built in two ways. -/
theorem build_eq_make_gauge :
    ∃ b, (b.build (.ofClass .gauge)).1 = (do
        let labels ← environment.withSingles [(.text "region", .text "eu")]
        DataPoint.make .gauge [.labels (.labels labels), .scrape (.whole 5), .value (.whole 2)]) ∧
      regionFirst.foldlM (PointBuilder.call (.ofClass .gauge)) (new (.ofClass .gauge)) = .ok b ∧
      environmentFirst.foldlM (PointBuilder.call (.ofClass .gauge)) (new (.ofClass .gauge)) = .ok b := by
  have hcalls : regionFirst.foldlM (PointBuilder.call (.ofClass .gauge)) (new (.ofClass .gauge)) = .ok _ := rfl
  have hbuilt := build_eq_make hcalls (by decide)
  exact ⟨_, hbuilt.1, hcalls, hbuilt.2 environmentFirst ⟨rfl, rfl, rfl⟩⟩

/-! ## A label set among the fields -/

/-- What comes of calls, of which some may be refused. -/
theorem outcome_eq (c : PointClass) (calls : List PointCall) :
    outcome (.ofClass c) calls = (do
      let labels ← (PointCall.lastLabels calls).withSingles (calls.filterMap PointCall.single?)
      DataPoint.make c (.labels (.labels labels) :: Field.latest (PointCall.others (.ofClass c) calls))) := by
  have haccepted : ∀ act ∈ calls.filter (PointCall.isAccepted (.ofClass c)), act.isAccepted (.ofClass c) = true :=
    fun act hact => (List.mem_filter.1 hact).2
  obtain ⟨hheld, hsingles⟩ := PointCall.filterMap_filter_isAccepted (t := .ofClass c) calls
  rw [outcome, after_eq rfl, build_of_not_consumed rfl]
  show ((calls.filter _).foldl PointDraft.gather .empty).make _ = _
  rw [PointDraft.make_foldl_gather haccepted, PointCall.lastLabels, hheld, hsingles]
  rfl

/-- **A label set among the fields is lost**: it is accepted, and the outcome is that of the calls without it. So it
is not the outcome of the calls that hand the label set over, unless a later call hands over another one, the labels
happen to be the same, or no point is made in either case. -/
theorem set_labels_lost (c : PointClass) (l : Labels) (front back : List PointCall) :
    (∃ b, ((new (.ofClass c)).after (.ofClass c) front).call (.ofClass c) (.set [.labels (.labels l)]) = .ok b) ∧
    outcome (.ofClass c) (front ++ .set [.labels (.labels l)] :: back) = outcome (.ofClass c) (front ++ back) ∧
    (outcome (.ofClass c) (front ++ .set [.labels (.labels l)] :: back) =
        outcome (.ofClass c) (front ++ .labels (.labels l) :: back) ↔
      (∃ act ∈ back, act.held?.isSome = true) ∨
      (PointCall.lastLabels front).withSingles ((front ++ back).filterMap PointCall.single?) =
        l.withSingles ((front ++ back).filterMap PointCall.single?) ∨
      ∃ e, outcome (.ofClass c) (front ++ back) = .error e ∧
        outcome (.ofClass c) (front ++ .labels (.labels l) :: back) = .error e) := by
  have hset : PointCall.isAccepted (.ofClass c) (.set [.labels (.labels l)]) = true := by
    simp [PointCall.isAccepted, PointCall.labelSet?, PointCall.given, Field.name, PointTarget.ofClass]
  have hlost : outcome (.ofClass c) (front ++ .set [.labels (.labels l)] :: back) =
      outcome (.ofClass c) (front ++ back) := by
    rw [outcome_eq, outcome_eq, PointCall.others_insert rfl, PointCall.lastLabels_insert rfl,
      PointCall.singles_insert rfl]
  refine ⟨⟨_, (call_eq_ok_iff (by rw [after_eq rfl]; rfl)).2 ⟨hset, rfl⟩⟩, hlost, ?_⟩
  rw [hlost]
  by_cases hback : ∃ act ∈ back, act.held?.isSome = true
  · -- A label set that is handed over behind takes the place of both.
    refine iff_of_true ?_ (.inl hback)
    rw [outcome_eq, outcome_eq, PointCall.others_insert rfl, PointCall.singles_insert rfl,
      PointCall.lastLabels_eq_of_held hback front, List.append_cons, PointCall.lastLabels_eq_of_held hback (front ++ _)]
  · have hfront : PointCall.lastLabels (front ++ back) = PointCall.lastLabels front :=
      PointCall.lastLabels_append_of_not_held hback
    have hlabels : PointCall.lastLabels (front ++ .labels (.labels l) :: back) = l := by
      rw [List.append_cons, PointCall.lastLabels_append_of_not_held hback, PointCall.lastLabels_append]
      rfl
    rw [or_iff_right hback, outcome_eq, outcome_eq, hfront, hlabels, PointCall.others_insert rfl,
      PointCall.singles_insert rfl]
    exact DataPoint.bind_make_labels_eq_iff

/-- An environment that is set as a field does not reach an info point. -/
theorem environment_lost :
    ¬ ∀ (c : PointClass) (l : Labels) (front back : List PointCall),
      (∃ b, ((new (.ofClass c)).after (.ofClass c) front).call (.ofClass c) (.set [.labels (.labels l)]) = .ok b) →
        outcome (.ofClass c) (front ++ .set [.labels (.labels l)] :: back) =
          outcome (.ofClass c) (front ++ .labels (.labels l) :: back) := by
  intro h
  have hinfo := h .info environment [] [] ⟨_, rfl⟩
  rw [outcome_eq, outcome_eq] at hinfo
  replace hinfo : (.ok .empty >>= fun l => DataPoint.make .info [.labels (.labels l)]) =
    (.ok environment >>= fun l => DataPoint.make .info [.labels (.labels l)]) := hinfo
  simp only [DataPoint.make_info_labels] at hinfo
  exact absurd (congrArg DataPoint.labels (Except.ok.inj hinfo)) (by decide)

end PointBuilder

end Telemetry
