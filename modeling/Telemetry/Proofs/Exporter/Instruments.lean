import Telemetry.Exporter.Meter
import Telemetry.Proofs.Exporter.Calls

/-!
# What instruments observe

A meter may reject an instrument on one pass and take it on a later one, and a metric may change its kind
between passes. Whatever happens, an instrument that was registered stays registered for its kind, and the
snapshots that are observed are those of the last accepted collection whose kind is the one that is registered
under their name.

One more snapshot adds at most one instrument, and touches nothing that is registered under other names. So
what is registered under the name of a snapshot once it has been enrolled is still so when all snapshots of
the collection have been, since their names are pairwise distinct.

## Main definitions

* `MeterExporter.after`: the meter exporter after calls
* `MeterExporter.recorded?`: the kind that is registered under a name
* `MeterExporter.taken`: the instruments that the meter took
* `MeterExporter.observes`: whether a snapshot can be observed

## Main results

* `MeterExporter.enroll_cases`: all that one more snapshot can do
* `MeterExporter.Sound.after`: no name is registered twice, and no kind that cannot be observed
* `MeterExporter.latest_after`: which snapshots are observed after calls
* `MeterExporter.after_observes`: what is registered and observed after calls
-/

namespace Telemetry

/-- The names in a collection are pairwise distinct, since the exposed names are. -/
theorem Collection.nodup_names (c : Collection) : (c.snapshots.map Snapshot.name).Nodup := by
  refine List.pairwise_map.2 (c.distinct_snapshots.imp fun hne heq => hne ?_)
  exact congrArg Naming.exposed heq

namespace MeterExporter

def recorded? (e : MeterExporter) (name : String) : Option Kind :=
  (e.find? name).map (·.kind)

/-- **The instruments that the meter took**, in the order in which it was offered them. -/
def taken (e : MeterExporter) : List Instrument :=
  (e.offers.filter (·.taken)).map (·.instrument)

/-- **Whether a snapshot can be observed**: its kind is observable, and registered under its name. -/
def observes (e : MeterExporter) (s : Snapshot) : Bool :=
  s.kind.isObservable && e.recorded? s.name == some s.kind

/-- The snapshots that can be observed, under their names. -/
def observable (e : MeterExporter) (snapshots : List Snapshot) : List (String × Snapshot) :=
  (snapshots.filter e.observes).map fun s => (s.name, s)

def step (meter : Meter) (e : MeterExporter) : Call → Except Error MeterExporter
  | .accept c => (e.accept meter c).map (·.1)
  | .shutdown => .ok e.shutdown

/-- **The meter exporter after calls**, from its beginning. -/
def after (meter : Meter) (lead : String) (calls : List Call) : MeterExporter :=
  Call.run (step meter) (new lead) calls

/-- A collection with a text in front of all names, if it can be put there. -/
def renamed? (lead : String) (c : Collection) : Option Collection :=
  (ScrapeExporter.renamed lead c).toOption

variable {meter : Meter} {lead : String} {e e' : MeterExporter} {s : Snapshot} {i : Instrument}
  {name : String} {snapshots : List Snapshot}

/-! ## Registering -/

@[simp] theorem recorded?_observe : (e.observe s).recorded? name = e.recorded? name := rfl

@[simp] theorem recorded?_reject : (e.reject i).recorded? name = e.recorded? name := rfl

@[simp] theorem taken_reject : (e.reject i).taken = e.taken := by
  simp [taken, reject]

@[simp] theorem taken_register : (e.register i).taken = e.taken ++ [i] := by
  simp [taken, register]

theorem find?_register :
    (e.register i).find? name = (e.find? name).or (if i.name = name then some i else none) := by
  simp only [find?, register, List.find?_append, List.find?_singleton, beq_iff_eq]

theorem recorded?_register_self (hnew : e.find? i.name = none) :
    (e.register i).recorded? i.name = some i.kind := by
  simp [recorded?, find?_register, hnew]

theorem recorded?_register_of_ne (hne : i.name ≠ name) :
    (e.register i).recorded? name = e.recorded? name := by
  simp [recorded?, find?_register, hne]

theorem recorded?_of_isPrefix (h : e.instruments <+: e'.instruments) {kind : Kind}
    (hkind : e.recorded? name = some kind) : e'.recorded? name = some kind := by
  obtain ⟨more, hmore⟩ := h
  obtain ⟨i, hi, rfl⟩ := Option.map_eq_some_iff.1 hkind
  have hfind : e.instruments.find? (·.name == name) = some i := hi
  rw [recorded?, find?, ← hmore, List.find?_append, hfind]
  rfl

/-! ## Which snapshots can be observed -/

theorem observable_cons (s : Snapshot) (rest : List Snapshot) :
    e.observable (s :: rest) = e.observable [s] ++ e.observable rest := by
  rw [observable, observable, observable, ← List.map_append, ← List.filter_append]
  rfl

theorem observable_singleton_of (h : e.observes s = true) : e.observable [s] = [(s.name, s)] := by
  simp [observable, h]

theorem observable_singleton_of_not (h : e.observes s = false) : e.observable [s] = [] := by
  simp [observable, h]

/-- Whether a snapshot can be observed depends on what is registered under its name only. -/
theorem observable_singleton_congr (h : e.recorded? s.name = e'.recorded? s.name) :
    e.observable [s] = e'.observable [s] := by
  have hobserves : e.observes s = e'.observes s := by rw [observes, observes, h]
  rw [observable, observable, List.filter_singleton, List.filter_singleton, hobserves]

/-- An instrument observes the snapshot of its name if it can be observed. -/
theorem lookup_observable_of_mem (hnames : (snapshots.map Snapshot.name).Nodup) (hs : s ∈ snapshots) :
    (e.observable snapshots).lookup s.name = if e.observes s then some s else none := by
  have hkeys : ((e.observable snapshots).map (·.1)).Nodup := by
    rw [observable, List.map_map]
    exact hnames.sublist (List.filter_sublist.map Snapshot.name)
  by_cases hobserves : e.observes s = true
  · rw [if_pos hobserves]
    have hmem : (s.name, s) ∈ e.observable snapshots :=
      List.mem_map.2 ⟨s, List.mem_filter.2 ⟨hs, hobserves⟩, rfl⟩
    exact lookup_eq_some_of_mem hkeys hmem
  · rw [if_neg hobserves, List.lookup_eq_none_iff]
    intro entry hentry
    obtain ⟨t, ht, rfl⟩ := List.mem_map.1 hentry
    obtain ⟨ht, htrue⟩ := List.mem_filter.1 ht
    refine bne_iff_ne.2 fun hname => hobserves ?_
    rwa [List.inj_on_of_nodup_map hnames hs ht hname]

theorem lookup_observable_of_not_mem (hname : name ∉ snapshots.map Snapshot.name) :
    (e.observable snapshots).lookup name = none := by
  rw [List.lookup_eq_none_iff]
  intro entry hentry
  obtain ⟨t, ht, rfl⟩ := List.mem_map.1 hentry
  refine bne_iff_ne.2 fun heq => hname ?_
  exact List.mem_map.2 ⟨t, List.mem_of_mem_filter ht, heq.symm⟩

/-! ## One more snapshot -/

/-- **All that one more snapshot can do**: nothing, if it cannot be observed; be observed by the instrument
of its name; have an instrument registered that observes it; or have one rejected. -/
theorem enroll_cases (meter : Meter) (e : MeterExporter) (s : Snapshot) :
    (e.observes s = false ∧ (enroll meter e s).1 = e) ∨
      (e.observes s = true ∧ (enroll meter e s).1 = e.observe s) ∨
      (s.kind.isObservable = true ∧ e.find? s.name = none ∧
        (enroll meter e s).1 = (e.register (.ofSnapshot s)).observe s) ∨
      (e.find? s.name = none ∧ (enroll meter e s).1 = e.reject (.ofSnapshot s)) := by
  unfold enroll
  by_cases hkind : s.kind.isObservable = true
  · rw [if_pos hkind]
    cases hfind : e.find? s.name with
    | none =>
      by_cases htaken : meter e.offers (.ofSnapshot s) = true
      · exact .inr (.inr (.inl ⟨hkind, rfl, by simp [htaken]⟩))
      · exact .inr (.inr (.inr ⟨rfl, by simp [htaken]⟩))
    | some known =>
      have hobserves : e.observes s = decide (known.kind = s.kind) := by
        simp [observes, recorded?, hkind, hfind]
        rfl
      by_cases hsame : known.kind = s.kind
      · exact .inr (.inl ⟨by simp [hobserves, hsame], by simp [hsame]⟩)
      · exact .inl ⟨by simp [hobserves, hsame], by simp [hsame]⟩
  · rw [if_neg hkind]
    exact .inl ⟨by simp [observes, hkind], rfl⟩

theorem lead_enroll : (enroll meter e s).1.lead = e.lead := by
  rcases enroll_cases meter e s with ⟨-, h⟩ | ⟨-, h⟩ | ⟨-, -, h⟩ | ⟨-, h⟩ <;> rw [h] <;> rfl

theorem instruments_enroll : e.instruments <+: (enroll meter e s).1.instruments := by
  rcases enroll_cases meter e s with ⟨-, h⟩ | ⟨-, h⟩ | ⟨-, -, h⟩ | ⟨-, h⟩
  · exact ⟨[], by simp [h]⟩
  · exact ⟨[], by simp [h, observe]⟩
  · exact ⟨[.ofSnapshot s], by simp [h, observe, register]⟩
  · exact ⟨[], by simp [h, reject]⟩

theorem recorded?_enroll_of_ne (hne : s.name ≠ name) :
    (enroll meter e s).1.recorded? name = e.recorded? name := by
  rcases enroll_cases meter e s with ⟨-, h⟩ | ⟨-, h⟩ | ⟨-, -, h⟩ | ⟨-, h⟩ <;> rw [h]
  · rfl
  · exact recorded?_register_of_ne hne
  · rfl

/-- A snapshot whose name is new is observed if it can be, once it is enrolled. -/
theorem latest_enroll (meter : Meter) (hnew : s.name ∉ e.latest.map (·.1)) :
    (enroll meter e s).1.latest = e.latest ++ (enroll meter e s).1.observable [s] := by
  have hlatest : (e.observe s).latest = e.latest ++ [(s.name, s)] := assign_of_not_mem s hnew
  rcases enroll_cases meter e s with ⟨hobserves, h⟩ | ⟨hobserves, h⟩ | ⟨hkind, hfind, h⟩ | ⟨hfind, h⟩ <;>
    rw [h]
  · rw [observable_singleton_of_not hobserves, List.append_nil]
  · rw [observable_singleton_congr recorded?_observe, observable_singleton_of hobserves]
    exact hlatest
  · -- The new instrument is of the kind of the snapshot.
    have hobserves : ((e.register (.ofSnapshot s)).observe s).observes s = true := by
      simp only [observes, hkind, recorded?_observe, Bool.true_and, beq_iff_eq]
      exact recorded?_register_self hfind
    rw [observable_singleton_of hobserves]
    exact hlatest
  · have hobserves : (e.reject (.ofSnapshot s)).observes s = false := by
      have hrecorded : e.recorded? s.name = none := by simp [recorded?, hfind]
      simp [observes, hrecorded]
    rw [observable_singleton_of_not hobserves, List.append_nil]
    rfl

/-! ## All snapshots of a collection -/

theorem lead_enrollAll : (enrollAll meter e snapshots).1.lead = e.lead := by
  induction snapshots generalizing e with
  | nil => rfl
  | cons s rest ih => exact ih.trans lead_enroll

theorem instruments_enrollAll : e.instruments <+: (enrollAll meter e snapshots).1.instruments := by
  induction snapshots generalizing e with
  | nil => exact List.prefix_refl _
  | cons s rest ih => exact instruments_enroll.trans ih

theorem recorded?_enrollAll_of_not_mem (hname : name ∉ snapshots.map Snapshot.name) :
    (enrollAll meter e snapshots).1.recorded? name = e.recorded? name := by
  induction snapshots generalizing e with
  | nil => rfl
  | cons s rest ih =>
    obtain ⟨hne, hrest⟩ := not_or.1 (List.mem_cons.not.1 hname)
    exact (ih hrest).trans (recorded?_enroll_of_ne (Ne.symm hne))

/-- **Snapshots of different names are observed if they can be**, once all are enrolled. -/
theorem latest_enrollAll (hnames : (snapshots.map Snapshot.name).Nodup)
    (hnew : ∀ s ∈ snapshots, s.name ∉ e.latest.map (·.1)) :
    (enrollAll meter e snapshots).1.latest =
      e.latest ++ (enrollAll meter e snapshots).1.observable snapshots := by
  induction snapshots generalizing e with
  | nil => simp [enrollAll, observable]
  | cons s rest ih =>
    obtain ⟨hs, hrest⟩ := List.nodup_cons.1 hnames
    obtain ⟨hnew, hnews⟩ := List.forall_mem_cons.1 hnew
    have hlatest := latest_enroll meter hnew
    have hsame : (enrollAll meter (enroll meter e s).1 rest).1.observable [s] =
        (enroll meter e s).1.observable [s] :=
      observable_singleton_congr (recorded?_enrollAll_of_not_mem hs)
    have hothers : ∀ t ∈ rest, t.name ∉ (enroll meter e s).1.latest.map (·.1) := by
      intro t ht hmem
      rw [hlatest, List.map_append] at hmem
      rcases List.mem_append.1 hmem with hmem | hmem
      · exact hnews t ht hmem
      · obtain ⟨entry, hentry, heq⟩ := List.mem_map.1 hmem
        obtain ⟨_, hs', rfl⟩ := List.mem_map.1 hentry
        obtain rfl := List.mem_singleton.1 (List.mem_of_mem_filter hs')
        exact hs (List.mem_map.2 ⟨t, ht, heq.symm⟩)
    calc
      (enrollAll meter e (s :: rest)).1.latest
          = (enrollAll meter (enroll meter e s).1 rest).1.latest := rfl
      _ = e.latest ++ (enroll meter e s).1.observable [s] ++
          (enrollAll meter (enroll meter e s).1 rest).1.observable rest := by rw [ih hrest hothers, hlatest]
      _ = e.latest ++ (enrollAll meter (enroll meter e s).1 rest).1.observable (s :: rest) := by
        rw [observable_cons s rest, hsame, List.append_assoc]

/-! ## Registrations -/

/-- **What holds of the registrations at all times**: they are what the meter took; no name is registered
twice, and no kind that cannot be observed. -/
structure Sound (e : MeterExporter) : Prop where
  taken : e.taken = e.instruments
  nodup : (e.instruments.map (·.name)).Nodup
  observable : ∀ i ∈ e.instruments, i.kind.isObservable = true

namespace Sound

theorem new (lead : String) : (new lead).Sound where
  taken := rfl
  nodup := List.nodup_nil
  observable _ hi := absurd hi List.not_mem_nil

theorem shutdown (h : e.Sound) : e.shutdown.Sound :=
  ⟨h.taken, h.nodup, h.observable⟩

/-- A name that is new can be registered for an observable kind. -/
theorem register (h : e.Sound) (hnew : e.find? i.name = none) (hkind : i.kind.isObservable = true) :
    (e.register i).Sound where
  taken := by
    rw [taken_register, h.taken]
    rfl
  nodup := by
    have hname : ∀ known ∈ e.instruments, known.name ≠ i.name := by
      simpa [find?, List.find?_eq_none] using hnew
    rw [MeterExporter.register, List.map_append, List.nodup_append]
    refine ⟨h.nodup, List.nodup_singleton _, ?_⟩
    rintro _ hfirst _ hsecond
    obtain ⟨known, hknown, rfl⟩ := List.mem_map.1 hfirst
    obtain rfl := List.mem_singleton.1 hsecond
    exact hname known hknown
  observable known hknown := by
    rcases List.mem_append.1 hknown with hknown | hknown
    · exact h.observable known hknown
    · obtain rfl := List.mem_singleton.1 hknown
      exact hkind

theorem enroll (h : e.Sound) : (enroll meter e s).1.Sound := by
  rcases enroll_cases meter e s with ⟨-, heq⟩ | ⟨-, heq⟩ | ⟨hkind, hfind, heq⟩ | ⟨-, heq⟩ <;> rw [heq]
  · exact h
  · exact ⟨h.taken, h.nodup, h.observable⟩
  · obtain ⟨htaken, hnodup, hobservable⟩ := h.register (i := .ofSnapshot s) hfind hkind
    exact ⟨htaken, hnodup, hobservable⟩
  · exact ⟨taken_reject.trans h.taken, h.nodup, h.observable⟩

theorem enrollAll (h : e.Sound) : (enrollAll meter e snapshots).1.Sound := by
  induction snapshots generalizing e with
  | nil => exact h
  | cons s rest ih => exact ih h.enroll

/-- A kind that is registered can be observed. -/
theorem observes_iff (h : e.Sound) : e.observes s = true ↔ e.recorded? s.name = some s.kind := by
  simp only [observes, Bool.and_eq_true, beq_iff_eq, and_iff_right_iff_imp]
  intro hrecorded
  obtain ⟨i, hi, hkind⟩ := Option.map_eq_some_iff.1 hrecorded
  rw [← hkind]
  exact h.observable i (List.mem_of_find?_eq_some hi)

end Sound

/-! ## One call -/

variable {c d : Collection} {call : Call}

theorem accept_of_renamed (h : ScrapeExporter.renamed e.lead c = .ok d) :
    e.accept meter c = .ok (enrollAll meter e.shutdown d.snapshots) := by
  rw [accept, h]
  rfl

theorem accept_of_not_renamed {cause : Error} (h : ScrapeExporter.renamed e.lead c = .error cause) :
    e.accept meter c = .error cause := by
  rw [accept, h]
  rfl

/-- **All that a call can do** if it returns: the latest snapshots are forgotten, and others, or none, are
enrolled. -/
theorem exists_of_step_eq_ok (h : step meter e call = .ok e') :
    ∃ snapshots, e' = (enrollAll meter e.shutdown snapshots).1 := by
  cases call with
  | accept c =>
    replace h : (e.accept meter c).map (·.1) = .ok e' := h
    cases hrenamed : ScrapeExporter.renamed e.lead c with
    | error cause =>
      rw [accept_of_not_renamed hrenamed] at h
      cases h
    | ok d =>
      rw [accept_of_renamed hrenamed] at h
      cases h
      exact ⟨d.snapshots, rfl⟩
  | shutdown =>
    cases h
    exact ⟨[], rfl⟩

/-- The snapshots of a collection are observed if they can be, once all are enrolled. -/
theorem latest_enrollAll_shutdown :
    (enrollAll meter e.shutdown d.snapshots).1.latest =
      (enrollAll meter e.shutdown d.snapshots).1.observable d.snapshots := by
  rw [latest_enrollAll d.nodup_names fun _ _ hmem => absurd hmem List.not_mem_nil]
  rfl

/-! ## All calls -/

theorem lead_after (meter : Meter) (lead : String) (calls : List Call) :
    (after meter lead calls).lead = lead := by
  refine Call.run_induction (P := fun e : MeterExporter => e.lead = lead) rfl
    (fun e call e' hlead hcall => ?_) calls
  obtain ⟨snapshots, rfl⟩ := exists_of_step_eq_ok hcall
  exact lead_enrollAll.trans hlead

/-- **The registrations are sound at all times.** -/
theorem Sound.after (meter : Meter) (lead : String) (calls : List Call) :
    (after meter lead calls).Sound := by
  refine Call.run_induction (Sound.new lead) (fun e call e' hsound hcall => ?_) calls
  obtain ⟨snapshots, rfl⟩ := exists_of_step_eq_ok hcall
  exact hsound.shutdown.enrollAll

/-- **Instruments stay registered.** -/
theorem instruments_after_append (meter : Meter) (lead : String) (calls more : List Call) :
    (after meter lead calls).instruments <+: (after meter lead (calls ++ more)).instruments := by
  rw [after, after, Call.run_append]
  refine Call.run_induction
    (P := fun e : MeterExporter => (after meter lead calls).instruments <+: e.instruments)
    (List.prefix_refl _) (fun e call e' hgrows hcall => ?_) more
  obtain ⟨snapshots, rfl⟩ := exists_of_step_eq_ok hcall
  exact hgrows.trans (instruments_enrollAll (e := e.shutdown))

theorem after_concat_of_renamed {calls : List Call} (h : ScrapeExporter.renamed lead c = .ok d) :
    after meter lead (calls ++ [.accept c]) =
      (enrollAll meter (after meter lead calls).shutdown d.snapshots).1 := by
  rw [← lead_after meter lead calls] at h
  have hstep : step meter (after meter lead calls) (.accept c) =
      .ok (enrollAll meter (after meter lead calls).shutdown d.snapshots).1 :=
    congrArg (Except.map Prod.fst) (accept_of_renamed h)
  exact Call.run_concat_of_eq_ok hstep

theorem after_concat_of_not_renamed {calls : List Call} {cause : Error}
    (h : ScrapeExporter.renamed lead c = .error cause) :
    after meter lead (calls ++ [.accept c]) = after meter lead calls := by
  rw [← lead_after meter lead calls] at h
  have hstep : step meter (after meter lead calls) (.accept c) = .error cause :=
    congrArg (Except.map Prod.fst) (accept_of_not_renamed h)
  exact Call.run_concat_of_eq_error hstep

/-- **The collection that instruments observe**: the last accepted one, unless the exporter was shut down
after that. -/
def shown (lead : String) (calls : List Call) : Collection :=
  (Call.lastAccepted? (renamed? lead) (Call.sinceShutdown calls)).getD .empty

/-- **Which snapshots are observed after calls**: those of the last accepted collection that can be. -/
theorem latest_after (meter : Meter) (lead : String) (calls : List Call) :
    (after meter lead calls).latest = (after meter lead calls).observable (shown lead calls).snapshots := by
  induction calls using List.reverseRecOn with
  | nil => rfl
  | append_singleton calls call ih =>
    cases call with
    | accept c =>
      rw [shown, Call.sinceShutdown_concat_accept, Call.lastAccepted?_concat, Call.accepted?, renamed?]
      cases hrenamed : ScrapeExporter.renamed lead c with
      | error cause =>
        rw [after_concat_of_not_renamed hrenamed]
        exact ih
      | ok d =>
        rw [after_concat_of_renamed hrenamed]
        exact latest_enrollAll_shutdown
    | shutdown =>
      have hstep : step meter (after meter lead calls) .shutdown = .ok (after meter lead calls).shutdown :=
        rfl
      rw [shown, Call.sinceShutdown_concat_shutdown, after, Call.run_concat_of_eq_ok hstep]
      rfl

theorem observed_after_of_mem (meter : Meter) {calls : List Call} (hs : s ∈ (shown lead calls).snapshots) :
    (after meter lead calls).observed s.name =
      if (after meter lead calls).recorded? s.name = some s.kind then s.observations else [] := by
  rw [observed, latest_after, lookup_observable_of_mem (shown lead calls).nodup_names hs]
  simp only [(Sound.after meter lead calls).observes_iff]
  by_cases hrecorded : (after meter lead calls).recorded? s.name = some s.kind
  · simp [hrecorded]
  · simp [hrecorded]

theorem observed_after_of_not_mem (meter : Meter) {calls : List Call}
    (hname : name ∉ (shown lead calls).snapshots.map Snapshot.name) :
    (after meter lead calls).observed name = [] := by
  rw [observed, latest_after, lookup_observable_of_not_mem hname]

/-- **What is registered and observed after calls**, whatever the meter takes:
instruments stay registered for their kinds; the meter took every name once at most, and no kind that cannot
be observed; the latest snapshots are of the kinds that are registered under their names; a collection that
can be renamed is accepted, and its snapshots that can be observed become the latest ones; another changes
nothing; without a collection that was accepted since the last shutdown there are no latest snapshots; and an
instrument observes the snapshot of its name in the last accepted collection if that is of its kind. -/
theorem after_observes (meter : Meter) (lead : String) (calls : List Call) :
    (∀ more, (after meter lead calls).instruments <+: (after meter lead (calls ++ more)).instruments ∧
      ∀ name kind, (after meter lead calls).recorded? name = some kind →
        (after meter lead (calls ++ more)).recorded? name = some kind) ∧
    (((after meter lead calls).taken.map (·.name)).Nodup ∧
      ∀ i ∈ (after meter lead calls).taken, i.kind ≠ .histogram ∧ i.kind ≠ .summary) ∧
    (∀ entry ∈ (after meter lead calls).latest,
      entry.1 = entry.2.name ∧ (after meter lead calls).recorded? entry.1 = some entry.2.kind) ∧
    (∀ c d, ScrapeExporter.renamed lead c = .ok d →
      ∃ e notices, (after meter lead calls).accept meter c = .ok (e, notices) ∧
        after meter lead (calls ++ [.accept c]) = e ∧ e.latest = e.observable d.snapshots) ∧
    (∀ c cause, ScrapeExporter.renamed lead c = .error cause →
      (after meter lead calls).accept meter c = .error cause ∧
        after meter lead (calls ++ [.accept c]) = after meter lead calls) ∧
    (Call.lastAccepted? (renamed? lead) (Call.sinceShutdown calls) = none →
      (after meter lead calls).latest = []) ∧
    (∀ s ∈ (shown lead calls).snapshots, (after meter lead calls).observed s.name =
      if (after meter lead calls).recorded? s.name = some s.kind then s.observations else []) ∧
    (∀ name, name ∉ (shown lead calls).snapshots.map Snapshot.name →
      (after meter lead calls).observed name = []) := by
  have hsound := Sound.after meter lead calls
  have hlead := lead_after meter lead calls
  refine ⟨fun more => ?_, ?_, fun entry hentry => ?_, fun c d hd => ?_, fun c cause hcause => ?_,
    fun hnone => ?_, fun s => observed_after_of_mem meter, fun name => observed_after_of_not_mem meter⟩
  · have hgrows := instruments_after_append meter lead calls more
    exact ⟨hgrows, fun name kind => recorded?_of_isPrefix hgrows⟩
  · rw [hsound.taken]
    refine ⟨hsound.nodup, fun i hi => ?_⟩
    have hkind := hsound.observable i hi
    constructor <;> intro heq <;> rw [heq] at hkind <;> cases hkind
  · rw [latest_after] at hentry
    obtain ⟨s, hs, rfl⟩ := List.mem_map.1 hentry
    exact ⟨rfl, hsound.observes_iff.1 (List.mem_filter.1 hs).2⟩
  · have haccept : (after meter lead calls).accept meter c =
        .ok (enrollAll meter (after meter lead calls).shutdown d.snapshots) :=
      accept_of_renamed (by rw [hlead]; exact hd)
    exact ⟨_, _, haccept, after_concat_of_renamed hd, latest_enrollAll_shutdown⟩
  · exact ⟨accept_of_not_renamed (by rw [hlead]; exact hcause), after_concat_of_not_renamed hcause⟩
  · rw [latest_after, shown, hnone]
    rfl

end MeterExporter

end Telemetry
