import Telemetry.Point.Measurement

/-!
# Points

A point is one measured sample: labels, two timestamps and a measurement. Timestamps are milliseconds since
the epoch, and zero stands for none.

## Main definitions

* `DataPoint`: points
* `DataPoint.make`: a point from its fields
* `DataPoint.relabel`, `DataPoint.withLabels`: a point with other labels
* `DataPoint.order`, `DataPoint.precedes`: the order of points, and which of two comes before the other
* `DataPoint.eq`, `DataPoint.display`: equality by value, and the form in records

## Main results

* `DataPoint.precedes_eq_order`: if all timestamps are numbers, points come before one another as ordered
-/

namespace Telemetry

/-- **A measured sample.** Info points have no creation time. -/
@[ext]
structure DataPoint where
  labels : Labels
  created : Amount
  scrape : Amount
  measurement : Measurement
  infoCreated : measurement.pointClass = .info → created = .zero

namespace DataPoint

def pointClass (p : DataPoint) : PointClass :=
  p.measurement.pointClass

/-! ## Construction -/

/-- The labels that are handed over, which have to be a label set. -/
def checkLabels : LabelArgument → Except Error Labels
  | .labels l => .ok l
  | .datum .null => .error (.point .missingLabels)
  | .datum d => .error (.point (.notLabels d.typeName))

def labelsIn (fields : List Field) : LabelArgument :=
  (fields.findSome? fun | .labels l => some l | _ => none).getD (.labels .empty)

def createdIn (fields : List Field) : Datum :=
  (fields.findSome? fun | .created d => some d | _ => none).getD (.whole 0)

def scrapeIn (fields : List Field) : Datum :=
  (fields.findSome? fun | .scrape d => some d | _ => none).getD (.whole 0)

/-- A point of its parts; the creation time of an info point is dropped. -/
def ofParts (labels : Labels) (created scrape : Amount) (measurement : Measurement) : DataPoint where
  labels := labels
  created := if measurement.pointClass = .info then .zero else created
  scrape := scrape
  measurement := measurement
  infoCreated h := if_pos h

/-- **A point from its fields.** Labels and timestamps are checked before the measurement. -/
def make (c : PointClass) (fields : List Field) : Except Error DataPoint :=
  match fields.find? fun f => !c.accepts f.name with
  | some f => .error (.argument (.unexpectedField c.title f.name))
  | none => do
    let labels ← checkLabels (labelsIn fields)
    let created ← Amount.ofTimestamp .created (createdIn fields)
    let scrape ← Amount.ofTimestamp .scrape (scrapeIn fields)
    let measurement ← Measurement.ofFields c fields
    return ofParts labels created scrape measurement

/-- **The fields of a point.** -/
def fields (p : DataPoint) : List Field :=
  let stamps :=
    if p.pointClass = .info then [.scrape (.number p.scrape.number)]
    else [.created (.number p.created.number), .scrape (.number p.scrape.number)]
  .labels (.labels p.labels) :: (stamps ++ p.measurement.fields)

/-- **The point with other labels.** -/
def relabel (p : DataPoint) (labels : Labels) : DataPoint :=
  { p with labels := labels }

/-- The point with the labels that are handed over, made again from its fields. -/
def withLabels (p : DataPoint) (labels : LabelArgument) : Except Error DataPoint :=
  make p.pointClass (Field.insert p.fields (.labels labels))

@[simp] theorem labels_relabel (p : DataPoint) (l : Labels) : (p.relabel l).labels = l := rfl

@[simp] theorem relabel_relabel (p : DataPoint) (l m : Labels) :
    (p.relabel l).relabel m = p.relabel m := rfl

@[simp] theorem relabel_labels (p : DataPoint) : p.relabel p.labels = p := rfl

/-! ## Look-up -/

def hasCreated (p : DataPoint) : Bool :=
  p.created.isPresent

def hasScrape (p : DataPoint) : Bool :=
  p.scrape.isPresent

/-! ## Comparison and written form -/

/-- **Equality by value.** -/
def eq (p q : DataPoint) : Bool :=
  p.labels == q.labels && p.created.number.eq q.created.number &&
    p.scrape.number.eq q.scrape.number && p.measurement.eq q.measurement

/-- **The form in which records show a point.** -/
def display (p : DataPoint) : Display :=
  .record p.pointClass.title (
    [("labels", p.labels.display), ("created_timestamp_millis", p.created.display),
      ("scrape_timestamp_millis", p.scrape.display)] ++ p.measurement.displayFields)

def written (p : DataPoint) : String :=
  p.display.render

/-! ## Order -/

/-- **The order of points**: by labels, then by scrape time and creation time; points that still tie are
ordered by their written forms. -/
def order : DataPoint → DataPoint → Ordering :=
  compareLex (compareOn fun p => p.labels.key)
    (compareLex (compareOn fun p => p.scrape.number.place?)
      (compareLex (compareOn fun p => p.created.number.place?) (compareOn written)))

instance : Std.TransCmp order :=
  inferInstanceAs (Std.TransCmp (compareLex (compareOn fun (p : DataPoint) => p.labels.key)
    (compareLex (compareOn fun p => p.scrape.number.place?)
      (compareLex (compareOn fun p => p.created.number.place?) (compareOn written)))))

/-- **Comes before.** A timestamp that is no number settles that neither of two points comes before the
other, so this is an order of points only if all timestamps are numbers. -/
def precedes (p q : DataPoint) : Bool :=
  match compare p.labels.key q.labels.key with
  | .lt => true
  | .gt => false
  | .eq =>
    match (Amount.earlier? p.scrape q.scrape).or (Amount.earlier? p.created q.created) with
    | some earlier => earlier
    | none => compare p.written q.written == .lt

/-- Of two points at most one comes before the other. -/
theorem precedes_asymm (p q : DataPoint) (h : precedes p q = true) : precedes q p = false := by
  unfold precedes at h ⊢
  have hkeys : compare q.labels.key p.labels.key = (compare p.labels.key q.labels.key).swap :=
    Std.OrientedOrd.eq_swap
  rw [hkeys]
  cases hkey : compare p.labels.key q.labels.key with
  | lt => rfl
  | gt => simp [hkey] at h
  | eq =>
    simp only [hkey, Ordering.swap_eq] at h ⊢
    cases hscrape : Amount.earlier? p.scrape q.scrape with
    | some earlier =>
      simp only [hscrape, Option.some_or] at h
      subst h
      rw [Amount.earlier?_asymm hscrape]
      rfl
    | none =>
      rw [Amount.earlier?_eq_none_comm.1 hscrape]
      simp only [hscrape, Option.none_or] at h ⊢
      cases hcreated : Amount.earlier? p.created q.created with
      | some earlier =>
        simp only [hcreated] at h
        subst h
        rw [Amount.earlier?_asymm hcreated]
      | none =>
        rw [Amount.earlier?_eq_none_comm.1 hcreated]
        simp only [hcreated, beq_iff_eq] at h
        have hwritten : compare q.written p.written = (compare p.written q.written).swap :=
          Std.OrientedOrd.eq_swap
        rw [hwritten, h]
        rfl

/-- Whether the timestamps of a point are numbers. -/
def isTimed (p : DataPoint) : Bool :=
  !p.scrape.number.isNaN && !p.created.number.isNaN

/-- Points whose timestamps are numbers come before one another as their order says. -/
theorem precedes_eq_order {p q : DataPoint} (hp : p.isTimed = true) (hq : q.isTimed = true) :
    precedes p q = (order p q == .lt) := by
  simp only [isTimed, Bool.and_eq_true, Bool.not_eq_true'] at hp hq
  have horder : order p q = (compare p.labels.key q.labels.key).then
      ((Amount.order p.scrape q.scrape).then ((Amount.order p.created q.created).then
        (compare p.written q.written))) := rfl
  rw [precedes, horder, Amount.earlier?_eq_order hp.1 hq.1, Amount.earlier?_eq_order hp.2 hq.2]
  cases compare p.labels.key q.labels.key <;> cases Amount.order p.scrape q.scrape <;>
    cases Amount.order p.created q.created <;> rfl

/-- A point that another one does not come before has labels that are not behind those of the other. -/
theorem isLE_labels_of_not_precedes {p q : DataPoint} (h : precedes q p = false) :
    (Labels.order p.labels q.labels).isLE = true := by
  have hkeys : Labels.order p.labels q.labels = (compare q.labels.key p.labels.key).swap :=
    Std.OrientedOrd.eq_swap
  rw [hkeys]
  unfold precedes at h
  cases hkey : compare q.labels.key p.labels.key with
  | lt => simp [hkey] at h
  | eq => rfl
  | gt => rfl

end DataPoint

end Telemetry
