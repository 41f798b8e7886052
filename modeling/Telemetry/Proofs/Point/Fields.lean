import Telemetry.Point
import Telemetry.Proofs.Steps

/-!
# Fields of points

A point is made of fields, and its own fields make it again, whichever label set is put among them. Its timestamps
are those that the fields give, so fields whose timestamps are numbers make a point whose timestamps are numbers.

## Main definitions

* `Field.AllTimed`: fields whose timestamps are numbers

## Main results

* `DataPoint.isTimed_of_make`: a point of timed fields is timed
* `DataPoint.allTimed_fields`: the fields of a timed point are timed
* `DataPoint.withLabels_labels`: a point with another label set is the same point but for its labels
* `DataPoint.make_fields`: a point is made again from its fields
* `DataPoint.withLabels_replaces`: replacing labels touches nothing else
-/

namespace Telemetry

/-! ## Timed fields -/

/-- Whether a datum is no `nan`. Data that are no numbers are no timestamps at all. -/
def Datum.isTimed : Datum → Bool
  | .number n => !n.isNaN
  | _ => true

namespace Field

/-- Whether the timestamp that a field may give is a number. -/
def isTimed : Field → Bool
  | .created d | .scrape d => d.isTimed
  | _ => true

/-- **Fields whose timestamps are numbers.** -/
def AllTimed (fields : List Field) : Prop :=
  ∀ f ∈ fields, f.isTimed = true

namespace AllTimed

variable {fields more : List Field} {f : Field}

theorem insert (h : AllTimed fields) (hf : f.isTimed = true) : AllTimed (Field.insert fields f) := by
  intro g hg
  unfold Field.insert at hg
  split at hg
  · obtain ⟨old, hold, rfl⟩ := List.mem_map.1 hg
    split
    · exact hf
    · exact h old hold
  · rcases List.mem_append.1 hg with hg | hg
    · exact h g hg
    · rw [List.mem_singleton.1 hg]
      exact hf

theorem insertAll (h : AllTimed fields) (hmore : AllTimed more) : AllTimed (Field.insertAll fields more) := by
  induction more generalizing fields with
  | nil => exact h
  | cons f rest ih =>
    apply ih (h.insert (hmore f List.mem_cons_self))
    intro g hg
    exact hmore g (List.mem_cons_of_mem _ hg)

end AllTimed

end Field

/-- A timestamp is the number that it was made of. -/
theorem Amount.number_of_ofTimestamp {moment : Moment} {d : Datum} {a : Amount}
    (h : ofTimestamp moment d = .ok a) : d = .number a.number := by
  cases d with
  | number n =>
    simp only [ofTimestamp, ofDatum] at h
    split at h
    · cases h
      rfl
    · cases h
  | _ => cases h

namespace DataPoint

variable {fields : List Field} {p q : DataPoint}

/-- What is found among timed fields is timed, if it is found in timestamps alone. -/
theorem isTimed_getD_findSome? {find : Field → Option Datum} (h : Field.AllTimed fields)
    (hfind : ∀ f d, find f = some d → f.isTimed = d.isTimed) :
    ((fields.findSome? find).getD (.whole 0)).isTimed = true := by
  cases hfound : fields.findSome? find with
  | none => rfl
  | some d =>
    obtain ⟨f, hf, hd⟩ := List.exists_of_findSome?_eq_some hfound
    exact (hfind f d hd).symm.trans (h f hf)

theorem isTimed_createdIn (h : Field.AllTimed fields) : (createdIn fields).isTimed = true := by
  apply isTimed_getD_findSome? h
  intro f d hd
  cases f <;> cases hd
  rfl

theorem isTimed_scrapeIn (h : Field.AllTimed fields) : (scrapeIn fields).isTimed = true := by
  apply isTimed_getD_findSome? h
  intro f d hd
  cases f <;> cases hd
  rfl

/-- **A point of timed fields is timed.** -/
theorem isTimed_of_make {c : PointClass} (hfields : Field.AllTimed fields) (h : make c fields = .ok p) :
    p.isTimed = true := by
  unfold make at h
  split at h
  · cases h
  · simp only [bind_eq_ok_iff] at h
    obtain ⟨labels, -, created, hcreated, scrape, hscrape, measurement, -, h⟩ := h
    cases h
    have hcreatedTimed := isTimed_createdIn hfields
    have hscrapeTimed := isTimed_scrapeIn hfields
    rw [Amount.number_of_ofTimestamp hcreated] at hcreatedTimed
    rw [Amount.number_of_ofTimestamp hscrape] at hscrapeTimed
    simp only [ofParts, isTimed, Bool.and_eq_true]
    refine ⟨hscrapeTimed, ?_⟩
    split
    · rfl
    · exact hcreatedTimed

theorem allTimed_fields (hp : p.isTimed = true) : Field.AllTimed p.fields := by
  have hown : ∀ f ∈ p.measurement.fields, f.isTimed = true := by
    cases p.measurement <;> simp [Measurement.fields, Field.isTimed]
  simp only [isTimed, Bool.and_eq_true] at hp
  intro f hf
  unfold DataPoint.fields at hf
  split at hf
  · simp only [List.mem_cons, List.mem_append, List.not_mem_nil, or_false] at hf
    obtain rfl | rfl | hf := hf
    · rfl
    · exact hp.1
    · exact hown f hf
  · simp only [List.mem_cons, List.mem_append, List.not_mem_nil, or_false] at hf
    obtain rfl | (rfl | rfl) | hf := hf
    · rfl
    · exact hp.2
    · exact hp.1
    · exact hown f hf

/-- **A timed point with other labels is timed.** -/
theorem isTimed_of_withLabels {labels : LabelArgument} (hp : p.isTimed = true)
    (h : p.withLabels labels = .ok q) : q.isTimed = true :=
  isTimed_of_make ((allTimed_fields hp).insert rfl) h

/-! ## Points made again -/

/-- Whatever is put among its fields for the labels, the class of a point accepts them. -/
theorem find?_insert_labels (p : DataPoint) (l : LabelArgument) :
    (Field.insert p.fields (.labels l)).find? (fun f => !p.pointClass.accepts f.name) = none := by
  obtain ⟨labels, created, scrape, measurement, infoCreated⟩ := p
  cases measurement <;> rfl

/-- Labels and timestamps are found again. Info points have no field for the creation time, which is zero. -/
theorem stamps_insert_labels (p : DataPoint) (l : LabelArgument) :
    labelsIn (Field.insert p.fields (.labels l)) = l ∧
      createdIn (Field.insert p.fields (.labels l)) = .number p.created.number ∧
        scrapeIn (Field.insert p.fields (.labels l)) = .number p.scrape.number := by
  obtain ⟨labels, created, scrape, measurement, infoCreated⟩ := p
  cases measurement with
  | info =>
    obtain rfl : created = .zero := infoCreated rfl
    exact ⟨rfl, rfl, rfl⟩
  | _ => exact ⟨rfl, rfl, rfl⟩

theorem ofFields_insert_labels (p : DataPoint) (l : LabelArgument) :
    Measurement.ofFields p.pointClass (Field.insert p.fields (.labels l)) = .ok p.measurement := by
  obtain ⟨labels, created, scrape, measurement, infoCreated⟩ := p
  cases measurement with
  | base | info | gauge | unknown | histogram => rfl
  | counter value exemplar =>
    show (do return Measurement.counter (← CounterValue.ofDatum (.number value.number)) exemplar) = _
    rw [CounterValue.ofDatum_number]
    rfl
  | stateSet states =>
    show (do return Measurement.stateSet (← StateSet.ofStates states.toList)) = _
    rw [StateSet.ofStates_toList]
    rfl
  | summary count sum quantiles exemplars =>
    have hcount : Measurement.countIn (Field.insert (DataPoint.fields ⟨labels, created, scrape,
        .summary count sum quantiles exemplars, infoCreated⟩) (.labels l)) = .ok count := by
      cases count with
      | none => rfl
      | some n =>
        show (Amount.ofDatum _ (.number n.number)).map some = _
        rw [Amount.ofDatum_number]
        rfl
    simp only [pointClass, Measurement.pointClass, Measurement.ofFields, hcount]
    show (do return Measurement.summary count sum (← Quantiles.ofList quantiles.toList) exemplars) = _
    rw [Quantiles.ofList_toList]
    rfl

/-- **A point with another label set** is the same point but for its labels. -/
theorem withLabels_labels (p : DataPoint) (l : Labels) : p.withLabels (.labels l) = .ok (p.relabel l) := by
  obtain ⟨hlabels, hcreated, hscrape⟩ := p.stamps_insert_labels (.labels l)
  unfold withLabels make
  rw [find?_insert_labels]
  simp only [hlabels, hcreated, hscrape, ofFields_insert_labels, Amount.ofTimestamp_number]
  refine congrArg Except.ok (DataPoint.ext rfl ?_ rfl rfl)
  show (if p.measurement.pointClass = .info then Amount.zero else p.created) = p.created
  split
  · next hinfo => exact (p.infoCreated hinfo).symm
  · rfl

/-- The labels of a point are among its fields. -/
theorem insert_labels_self (p : DataPoint) : Field.insert p.fields (.labels (.labels p.labels)) = p.fields := by
  obtain ⟨labels, created, scrape, measurement, infoCreated⟩ := p
  cases measurement <;> rfl

/-- **A point is made again from its fields.** What was checked and put in order once is left alone. -/
theorem make_fields (p : DataPoint) : make p.pointClass p.fields = .ok p := by
  have hsame := p.withLabels_labels p.labels
  rw [withLabels, insert_labels_self] at hsame
  exact hsame

/-! ## Replaced labels -/

/-- The fields of a class make a measurement of this class. -/
theorem pointClass_of_ofFields {c : PointClass} {m : Measurement} (h : Measurement.ofFields c fields = .ok m) :
    m.pointClass = c := by
  cases c with
  | base | info | gauge | unknown =>
    cases h
    rfl
  | counter =>
    obtain ⟨value, -, h⟩ := bind_eq_ok_iff.1 h
    cases h
    rfl
  | histogram =>
    obtain ⟨buckets, -, h⟩ := bind_eq_ok_iff.1 h
    obtain ⟨exemplars, -, h⟩ := bind_eq_ok_iff.1 h
    cases h
    rfl
  | summary =>
    obtain ⟨count, -, h⟩ := bind_eq_ok_iff.1 h
    obtain ⟨quantiles, -, h⟩ := bind_eq_ok_iff.1 h
    obtain ⟨exemplars, -, h⟩ := bind_eq_ok_iff.1 h
    cases h
    rfl
  | stateSet =>
    obtain ⟨states, -, h⟩ := bind_eq_ok_iff.1 h
    cases h
    rfl

/-- A point is of the class of which it was made. -/
theorem pointClass_of_make {c : PointClass} (h : make c fields = .ok p) : p.pointClass = c := by
  unfold make at h
  split at h
  · cases h
  · simp only [bind_eq_ok_iff] at h
    obtain ⟨labels, -, created, -, scrape, -, measurement, hmeasurement, h⟩ := h
    cases h
    exact pointClass_of_ofFields hmeasurement

/-- **Replacing labels touches nothing else.** It never fails, and the point keeps its class, both timestamps and its
measurement, with buckets, quantiles, states and exemplars in their order. Of two replacements the second counts, and
the labels that a point has replace themselves. So a point is made again from its fields, as the class of which it was
made. -/
theorem withLabels_replaces (p : DataPoint) (l m : Labels) :
    (∃ q, p.withLabels (.labels l) = .ok q ∧ q.labels = l ∧ q.pointClass = p.pointClass ∧ q.created = p.created ∧
        q.scrape = p.scrape ∧ q.measurement = p.measurement ∧
        q.withLabels (.labels m) = p.withLabels (.labels m)) ∧
      p.withLabels (.labels p.labels) = .ok p ∧
      (∀ c fields, make c fields = .ok p → make c p.fields = .ok p) ∧
      make p.pointClass p.fields = .ok p := by
  refine ⟨⟨p.relabel l, p.withLabels_labels l, rfl, rfl, rfl, rfl, rfl, ?_⟩, p.withLabels_labels p.labels,
    fun c fields h => ?_, p.make_fields⟩
  · rw [withLabels_labels, withLabels_labels, relabel_relabel]
  · rw [← pointClass_of_make h]
    exact p.make_fields

end DataPoint

end Telemetry
