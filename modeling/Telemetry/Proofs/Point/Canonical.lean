import Telemetry.Dictionary
import Telemetry.Point
import Telemetry.Proofs.Arrangement
import Telemetry.Proofs.Steps

/-!
# Canonical quantiles and states

The quantiles of a summary and the states of a state set are given in any order. They are told apart by their shares and
their names, which have to be different, and a point keeps them in increasing order: it does not depend on the order in
which they were given. States may as well be given by name, and are looked up by name.

## Main definitions

* `Canonical`: construction from lists in any order
* `Quantiles.Arranges`, `StateSet.Arranges`: quantiles and states that are the given ones, in order
* `DataPoint.summary`, `DataPoint.stateSet`: points with quantiles or states among their fields

## Main results

* `Quantiles.ofList_eq_ok_iff`, `Quantiles.canonical_ofList`: which quantiles are made of a list, and when
* `StateSet.ofStates_eq_ok_iff`, `StateSet.canonical_ofStates`: which state set is made of a list, and when
* `StateSet.isEnabled_eq_ok_iff`: what is found under a name
* `DataPoint.quantiles_states_canonical`: summaries and state sets are canonical
-/

namespace Telemetry

/-! ## Canonical construction -/

/-- **Canonical construction** from lists in any order. Something is made of the acceptable lists and of no others,
which are invalid; it arranges the elements of the list, and is the same for all orders of them. -/
structure Canonical {α β : Type} (make : List α → Except Error β) (acceptable : List α → Prop)
    (arranges : β → List α → Prop) : Prop where
  made : ∀ xs, (∃ b, make xs = .ok b) ↔ acceptable xs
  invalid : ∀ xs e, make xs = .error e → e.category = .invalid
  arranged : ∀ xs b, make xs = .ok b → arranges b xs
  unordered : ∀ xs ys b, make xs = .ok b → ys.Perm xs → make ys = .ok b

/-- Construction stays canonical if something else is made of its results. -/
theorem Canonical.bind {α β γ : Type} {make : List α → Except Error β} {acceptable : List α → Prop}
    {arranges : β → List α → Prop} (h : Canonical make acceptable arranges) {f : β → γ}
    {make' : List α → Except Error γ} {arranges' : γ → List α → Prop}
    (hmake : ∀ xs, make' xs = make xs >>= fun b => .ok (f b))
    (harranges : ∀ b xs, arranges b xs → arranges' (f b) xs) : Canonical make' acceptable arranges' where
  made xs := by
    rw [← h.made xs]
    simp only [hmake, bind_eq_ok_iff]
    exact ⟨fun ⟨_, b, hb, _⟩ => ⟨b, hb⟩, fun ⟨b, hb⟩ => ⟨f b, b, hb, rfl⟩⟩
  invalid xs e he := by
    rw [hmake] at he
    rcases bind_eq_error_iff.1 he with he | ⟨b, -, he⟩
    · exact h.invalid xs e he
    · cases he
  arranged xs c hc := by
    rw [hmake] at hc
    obtain ⟨b, hb, hc⟩ := bind_eq_ok_iff.1 hc
    cases hc
    exact harranges b xs (h.arranged xs b hb)
  unordered xs ys c hc hperm := by
    rw [hmake] at hc ⊢
    obtain ⟨b, hb, hc⟩ := bind_eq_ok_iff.1 hc
    exact bind_eq_ok_iff.2 ⟨b, h.unordered xs ys b hb hperm, hc⟩

/-! ## Quantiles -/

namespace Quantile

theorem isNaN_share (q : Quantile) : q.share.isNaN = false := by
  cases hplace : q.share.place? with
  | some p => exact Number.isNaN_eq_false_iff.2 ⟨p, hplace⟩
  | none =>
    have hshare := q.isShare
    rw [Number.place?_eq_none_iff.1 hplace] at hshare
    cases hshare

/-- Quantiles tie if their shares are equal by value. -/
theorem order_ne_eq_iff {a b : Quantile} : order a b ≠ .eq ↔ a.share.eq b.share = false := by
  rw [Number.eq_eq_order a.isNaN_share b.isNaN_share, beq_eq_false_iff_ne]
  rfl

end Quantile

namespace Quantiles

variable {q : Quantiles} {qs : List Quantile} {e : Error}

/-- **Which quantiles are made of a list**: those that are its elements. -/
theorem ofList_eq_ok_iff : ofList qs = .ok q ↔ qs.Perm q.toList := by
  constructor
  · intro h
    unfold ofList at h
    split at h
    · cases h
    · cases h
      exact (arrange_perm Quantile.order qs).symm
  · intro hperm
    have harrange := q.increasing.arrange_eq_of_perm hperm
    unfold ofList
    split
    · next first second htie =>
      rw [harrange, q.increasing.firstTie?_eq_none] at htie
      cases htie
    · exact congrArg Except.ok (Quantiles.ext harrange)

/-- **When quantiles are made of a list**: if their shares are different. -/
theorem exists_ofList_iff : (∃ q, ofList qs = .ok q) ↔ qs.Pairwise fun a b => a.share.eq b.share = false := by
  simp only [ofList_eq_ok_iff, ← Quantile.order_ne_eq_iff]
  constructor
  · rintro ⟨q, hperm⟩
    exact (pairwise_ne_iff_of_perm hperm).2 q.increasing.pairwise_ne
  · intro hdifferent
    exact ⟨⟨arrange Quantile.order qs, increasing_arrange_of_ne hdifferent⟩, (arrange_perm Quantile.order qs).symm⟩

theorem category_of_ofList_eq_error (h : ofList qs = .error e) : e.category = .invalid := by
  unfold ofList at h
  split at h
  · cases h
    rfl
  · cases h

theorem pairwise_share (q : Quantiles) : q.toList.Pairwise fun a b => a.share.lt b.share = true := by
  refine q.increasing.imp fun {a b} hlt => ?_
  rw [Number.lt_eq_order a.isNaN_share b.isNaN_share, beq_iff_eq]
  exact hlt

/-- **Quantiles that arrange a list**: its elements, with increasing shares. -/
structure Arranges (q : Quantiles) (qs : List Quantile) : Prop where
  elements : q.toList.Perm qs
  increasing : q.toList.Pairwise fun a b => a.share.lt b.share = true

/-- **Quantiles are canonical.** -/
theorem canonical_ofList :
    Canonical ofList (fun qs => qs.Pairwise fun a b => a.share.eq b.share = false) Arranges where
  made _ := exists_ofList_iff
  invalid _ _ := category_of_ofList_eq_error
  arranged _ q h := ⟨(ofList_eq_ok_iff.1 h).symm, q.pairwise_share⟩
  unordered _ _ _ h hperm := ofList_eq_ok_iff.2 (hperm.trans (ofList_eq_ok_iff.1 h))

end Quantiles

/-! ## States -/

namespace StateSet

variable {s : StateSet} {states : List State} {e : Error}

/-- **Which state set is made of a list**: the one that has its elements. -/
theorem ofStates_eq_ok_iff : ofStates states = .ok s ↔ states.Perm s.toList := by
  constructor
  · intro h
    unfold ofStates at h
    dsimp only at h
    split at h
    · split at h
      · split at h
        · cases h
        · cases h
          exact (arrange_perm State.order states).symm
      · cases h
    · cases h
  · intro hperm
    have harrange := s.increasing.arrange_eq_of_perm hperm
    unfold ofStates
    dsimp only
    rw [dif_pos (by rw [harrange]; exact s.nonempty), dif_pos (by rw [harrange]; exact s.named)]
    split
    · next first second htie =>
      rw [harrange, s.increasing.firstTie?_eq_none] at htie
      cases htie
    · exact congrArg Except.ok (StateSet.ext harrange)

theorem category_of_ofStates_eq_error (h : ofStates states = .error e) : e.category = .invalid := by
  unfold ofStates at h
  dsimp only at h
  split at h
  · split at h
    · split at h
      · cases h
        rfl
      · cases h
    · cases h
      rfl
  · cases h
    rfl

theorem nodup_names_iff : (states.map State.name).Nodup ↔ states.Pairwise fun a b => State.order a b ≠ .eq := by
  rw [List.Nodup, List.pairwise_map]
  refine List.Pairwise.iff fun a b => not_congr ?_
  exact Std.LawfulEqCmp.compare_eq_iff_eq.symm

/-- **When a state set is made of a list**: if there is a state, and names are not empty and different. -/
theorem exists_ofStates_iff :
    (∃ s, ofStates states = .ok s) ↔
      states ≠ [] ∧ (∀ x ∈ states, x.name ≠ "") ∧ (states.map State.name).Nodup := by
  simp only [ofStates_eq_ok_iff, nodup_names_iff]
  constructor
  · rintro ⟨s, hperm⟩
    refine ⟨?_, fun x hx => s.named x (hperm.mem_iff.1 hx), (pairwise_ne_iff_of_perm hperm).2 s.increasing.pairwise_ne⟩
    rintro rfl
    exact s.nonempty (List.nil_perm.1 hperm)
  · rintro ⟨hne, hnamed, hdifferent⟩
    have hperm := arrange_perm State.order states
    refine ⟨⟨arrange State.order states, ?_, fun x hx => hnamed x (mem_arrange.1 hx),
      increasing_arrange_of_ne hdifferent⟩, hperm.symm⟩
    intro hnil
    rw [hnil] at hperm
    exact hne (List.nil_perm.1 hperm)

theorem pairwise_name (s : StateSet) : s.toList.Pairwise fun x y => x.name < y.name :=
  s.increasing.imp fun {_ _} hlt => compareOfLessAndEq_eq_lt.1 hlt

/-- **What is found under a name**: the state of that name. -/
theorem isEnabled_eq_ok_iff {name : String} {enabled : Bool} :
    s.isEnabled name = .ok enabled ↔ ⟨name, enabled⟩ ∈ s.toList := by
  have hnames := nodup_names_iff.2 s.increasing.pairwise_ne
  have hfind {x : State} := find?_key_eq_some_iff (k := name) (a := x)
    fun _ hx _ hy => List.inj_on_of_nodup_map hnames hx hy
  unfold isEnabled
  constructor
  · intro h
    split at h
    · next state hstate =>
      obtain ⟨hmem, rfl⟩ := hfind.1 hstate
      cases h
      exact hmem
    · cases h
  · intro hmem
    rw [hfind.2 ⟨hmem, rfl⟩]

theorem exists_isEnabledAt_eq_error {d : Datum} (h : ∀ x ∈ s.toList, d ≠ .text x.name) :
    ∃ e, s.isEnabledAt d = .error e ∧ e.category = .missingKey := by
  cases d with
  | text name =>
    have hfind : s.toList.find? (·.name == name) = none :=
      List.find?_eq_none.2 fun x hx hname => h x hx (congrArg Datum.text (beq_iff_eq.1 hname).symm)
    rw [isEnabledAt, isEnabled, hfind]
    exact ⟨_, rfl, rfl⟩
  | _ => exact ⟨_, rfl, rfl⟩

/-- **A state set that arranges a list**: its elements, with increasing names, under which they are found and nothing
else is. -/
structure Arranges (s : StateSet) (states : List State) : Prop where
  elements : s.toList.Perm states
  increasing : s.toList.Pairwise fun x y => x.name < y.name
  found : ∀ x ∈ states, s.isEnabledAt (.text x.name) = .ok x.enabled
  notFound : ∀ d, (∀ x ∈ states, d ≠ .text x.name) → ∃ e, s.isEnabledAt d = .error e ∧ e.category = .missingKey

theorem arranges_of_ofStates_eq_ok (h : ofStates states = .ok s) : s.Arranges states := by
  have hperm := ofStates_eq_ok_iff.1 h
  exact
    { elements := hperm.symm
      increasing := s.pairwise_name
      found := fun _ hx => isEnabled_eq_ok_iff.2 (hperm.mem_iff.1 hx)
      notFound := fun _ hd => exists_isEnabledAt_eq_error fun x hx => hd x (hperm.mem_iff.2 hx) }

/-- **State sets are canonical.** -/
theorem canonical_ofStates :
    Canonical ofStates (fun states => states ≠ [] ∧ (∀ x ∈ states, x.name ≠ "") ∧ (states.map State.name).Nodup)
      Arranges where
  made _ := exists_ofStates_iff
  invalid _ _ := category_of_ofStates_eq_error
  arranged _ _ := arranges_of_ofStates_eq_ok
  unordered _ _ _ h hperm := ofStates_eq_ok_iff.2 (hperm.trans (ofStates_eq_ok_iff.1 h))

end StateSet

/-! ## Points -/

namespace DataPoint

variable {c c' : PointClass} {others : List Field} {p : DataPoint}

/-- No class has labels or timestamps as fields of its own. -/
theorem common_not_mem_ownFieldNames (c : PointClass) :
    "labels" ∉ c.ownFieldNames ∧ "created_timestamp_millis" ∉ c.ownFieldNames ∧
      "scrape_timestamp_millis" ∉ c.ownFieldNames := by
  cases c <;> decide

/-- Every class with a creation time accepts the fields of the base class. -/
theorem accepts_of_accepts_base (hc : c ≠ .info) {name : String} (h : PointClass.base.accepts name = true) :
    c.accepts name = true := by
  have hmem : name ∈ ["labels", "created_timestamp_millis", "scrape_timestamp_millis"] :=
    List.contains_iff_mem.1 h
  refine List.contains_iff_mem.2 ?_
  rw [PointClass.fieldNames, if_neg hc]
  exact List.mem_append_left c.ownFieldNames hmem

/-- **A point is made if its measurement is**, if the other fields make one of a class that does not accept more. -/
theorem exists_make_cons_eq (h : make c others = .ok p)
    (haccepts : ∀ name, c.accepts name = true → c'.accepts name = true) :
    ∃ point : Measurement → DataPoint, (∀ m, (point m).measurement = m) ∧
      ∀ f : Field, f.name ∈ c'.ownFieldNames →
        make c' (f :: others) = Measurement.ofFields c' (f :: others) >>= fun m => .ok (point m) := by
  unfold make at h
  split at h
  · cases h
  · next hfind =>
    simp only [bind_eq_ok_iff] at h
    obtain ⟨labels, hlabels, created, hcreated, scrape, hscrape, -, -, -⟩ := h
    refine ⟨ofParts labels created scrape, fun m => rfl, fun f hown => ?_⟩
    have hf : c'.accepts f.name = true :=
      List.contains_iff_mem.2 (List.mem_cons_of_mem _ (List.mem_append_right _ hown))
    have hnone : (f :: others).find? (fun g => !c'.accepts g.name) = none := by
      rw [List.find?_eq_none] at hfind ⊢
      refine List.forall_mem_cons.2 ⟨by simp [hf], fun g hg => ?_⟩
      have hg := hfind g hg
      simp only [Bool.not_eq_true', Bool.not_eq_false] at hg
      simp [haccepts g.name hg]
    have hcommon : labelsIn (f :: others) = labelsIn others ∧ createdIn (f :: others) = createdIn others ∧
        scrapeIn (f :: others) = scrapeIn others := by
      cases f with
      | labels => exact absurd hown (common_not_mem_ownFieldNames c').1
      | created => exact absurd hown (common_not_mem_ownFieldNames c').2.1
      | scrape => exact absurd hown (common_not_mem_ownFieldNames c').2.2
      | _ => exact ⟨rfl, rfl, rfl⟩
    unfold make
    rw [hnone, hcommon.1, hcommon.2.1, hcommon.2.2, hlabels, hcreated, hscrape]
    rfl

/-- A summary of quantiles, with other fields. -/
def summary (others : List Field) (qs : List Quantile) : Except Error DataPoint :=
  make .summary (.quantiles (some qs) :: others)

def stateSet (others : List Field) (source : StateSource) : Except Error DataPoint :=
  make .stateSet (.states source :: others)

/-- **Whether a summary is made is up to its quantiles**, if there is one without quantiles. -/
theorem exists_summary_eq (h : make .summary others = .ok p) :
    ∃ point : Quantiles → DataPoint,
      (∀ q, ∃ count sum exemplars, (point q).measurement = .summary count sum q exemplars) ∧
      ∀ qs, summary others qs = Quantiles.ofList qs >>= fun q => .ok (point q) := by
  obtain ⟨point, hpoint, hmake⟩ := exists_make_cons_eq h fun _ => id
  unfold make at h
  split at h
  · cases h
  · simp only [bind_eq_ok_iff] at h
    obtain ⟨-, -, -, -, -, -, measurement, hmeasurement, -⟩ := h
    unfold Measurement.ofFields at hmeasurement
    simp only [bind_eq_ok_iff] at hmeasurement
    obtain ⟨count, hcount, -, -, exemplars, hexemplars, -⟩ := hmeasurement
    refine ⟨fun q => point (.summary count (Measurement.sumIn others) q exemplars),
      fun q => ⟨count, Measurement.sumIn others, exemplars, hpoint _⟩, fun qs => ?_⟩
    have hfields : Measurement.ofFields .summary (.quantiles (some qs) :: others) =
        Measurement.countIn others >>= fun count => Quantiles.ofList qs >>= fun q =>
          Measurement.exemplarsIn others >>= fun exemplars =>
            .ok (.summary count (Measurement.sumIn others) q exemplars) := rfl
    rw [summary, hmake _ (show "quantiles" ∈ _ by decide), hfields, hcount, hexemplars]
    cases Quantiles.ofList qs <;> rfl

/-- **Whether a state set is made is up to its states**, if the other fields make a point of the base class. -/
theorem exists_stateSet_eq (h : make .base others = .ok p) :
    ∃ point : StateSet → DataPoint, (∀ s, (point s).measurement = .stateSet s) ∧
      ∀ source, stateSet others source = StateSet.ofSource source >>= fun s => .ok (point s) := by
  have haccepts (name : String) : PointClass.base.accepts name = true → PointClass.stateSet.accepts name = true :=
    accepts_of_accepts_base (by decide)
  obtain ⟨point, hpoint, hmake⟩ := exists_make_cons_eq h haccepts
  refine ⟨fun s => point (.stateSet s), fun s => hpoint _, fun source => ?_⟩
  have hfields : Measurement.ofFields .stateSet (.states source :: others) =
      StateSet.ofSource source >>= fun s => .ok (.stateSet s) := rfl
  rw [stateSet, hmake _ (List.mem_singleton.2 rfl), hfields]
  cases StateSet.ofSource source <;> rfl

/-- States that are given by name are those of a list. -/
theorem stateSet_mapping (others : List Field) (entries : List (String × Datum)) :
    stateSet others (.mapping entries) =
      stateSet others (.states (entries.map fun (name, enabled) => ⟨name, enabled.isTruthy⟩)) := by
  have hfields (source : StateSource) : Measurement.ofFields .stateSet (.states source :: others) =
      StateSet.ofSource source >>= fun s => .ok (.stateSet s) := rfl
  unfold stateSet make
  rw [hfields, hfields]
  rfl

/-- **Summaries and state sets are canonical**, if the other fields are valid: if they make a summary without quantiles,
or a point of the base class. There are summaries of quantiles with different shares, and of no others. There are state
sets of at least one state with names that are different and not empty, and of no others, and states that are given by
name make the same point as those of a list. -/
theorem quantiles_states_canonical (others : List Field) :
    (∀ p, make .summary others = .ok p →
      Canonical (summary others) (fun qs => qs.Pairwise fun a b => a.share.eq b.share = false)
        fun r qs => ∃ q count sum exemplars, r.measurement = .summary count sum q exemplars ∧ q.Arranges qs) ∧
    (∀ p, make .base others = .ok p →
      Canonical (fun states => stateSet others (.states states))
        (fun states => states ≠ [] ∧ (∀ x ∈ states, x.name ≠ "") ∧ (states.map State.name).Nodup)
        fun r states => ∃ s, r.measurement = .stateSet s ∧ s.Arranges states) ∧
    ∀ entries, stateSet others (.mapping entries) =
      stateSet others (.states (entries.map fun (name, enabled) => ⟨name, enabled.isTruthy⟩)) := by
  refine ⟨fun p hp => ?_, fun p hp => ?_, stateSet_mapping others⟩
  · obtain ⟨point, hpoint, hsummary⟩ := exists_summary_eq hp
    refine Quantiles.canonical_ofList.bind hsummary fun q qs hq => ?_
    obtain ⟨count, sum, exemplars, hmeasurement⟩ := hpoint q
    exact ⟨q, count, sum, exemplars, hmeasurement, hq⟩
  · obtain ⟨point, hpoint, hstateSet⟩ := exists_stateSet_eq hp
    exact StateSet.canonical_ofStates.bind (fun states => hstateSet (.states states)) fun s _ hs => ⟨s, hpoint s, hs⟩

def medianAndTail : List Quantile :=
  [⟨.real (.ofDecimal false 99 (-2)), .whole 7, by decide +kernel⟩,
    ⟨.real (.ofDecimal false 5 (-1)), .whole 2, by decide +kernel⟩]

/-- Two quantiles in both orders make one summary, and two states, one of which is on, make one state set, in which
there is no third one. -/
theorem canonical_medianAndTail_modes :
    (∃ r, summary [.sum (.whole 12)] medianAndTail = .ok r ∧
      summary [.sum (.whole 12)] medianAndTail.reverse = .ok r) ∧
    ∃ r s, stateSet [.created (.whole 5)] (.mapping [("standby", .null), ("active", .text "yes")]) = .ok r ∧
      stateSet [.created (.whole 5)] (.states [⟨"active", true⟩, ⟨"standby", false⟩]) = .ok r ∧
      r.measurement = .stateSet s ∧ s.isEnabledAt (.text "active") = .ok true ∧
      ∃ e, s.isEnabledAt (.text "off") = .error e ∧ e.category = .missingKey := by
  obtain ⟨p, hp⟩ := exists_eq_ok_of_isOk (x := make .summary [.sum (.whole 12)]) (by decide +kernel)
  obtain ⟨b, hb⟩ := exists_eq_ok_of_isOk (x := make .base [.created (.whole 5)]) (by decide +kernel)
  obtain ⟨hsummaries, -, -⟩ := quantiles_states_canonical [.sum (.whole 12)]
  obtain ⟨-, hsets, hmapping⟩ := quantiles_states_canonical [.created (.whole 5)]
  obtain ⟨r, hr⟩ := ((hsummaries p hp).made medianAndTail).2 (by decide +kernel)
  obtain ⟨t, ht⟩ := ((hsets b hb).made [⟨"standby", false⟩, ⟨"active", true⟩]).2 (by decide)
  obtain ⟨s, hmeasurement, hs⟩ := (hsets b hb).arranged _ t ht
  refine ⟨⟨r, hr, (hsummaries p hp).unordered _ _ r hr (List.reverse_perm _)⟩, t, s, ?_,
    (hsets b hb).unordered _ _ t ht (List.Perm.swap _ _ _), hmeasurement,
    hs.found ⟨"active", true⟩ (by decide), hs.notFound (.text "off") (by simp)⟩
  rw [hmapping]
  exact ht

end DataPoint

end Telemetry
