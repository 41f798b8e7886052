import Telemetry.Proofs.Labels.Order
import Telemetry.Proofs.Point.Written

/-!
# What the sort key of points tells apart

Points are sorted by a key: their labels as they are exposed, their two timestamps, and their written form. Labels that
are exposed alike may be spelled differently, and timestamps that are equal by value may be numbers of different sorts;
what these leave open the written form decides, which shows all of a point. So points have the same key only if they are
the same in every field, and of two points exactly one comes before the other unless they are the same.

## Main definitions

* `PointKey`, `DataPoint.key`: the keys, and the key of a point
* `PointKey.eq`: equality of keys, part by part

## Main results

* `DataPoint.eq_of_key_eq`, `DataPoint.key_eq_self`: points with the same key are equal, and a timed point has its own key
* `DataPoint.exactlyOne_precedes`: of two points exactly one comes before the other, or they are equal
* `DataPoint.key_separates`: the sort key separates points
-/

namespace Telemetry

/-- **The key of a point**: exposed names and values of its labels, timestamps, and written form. -/
structure PointKey where
  labels : List (String × String)
  scrape : Number
  created : Number
  written : String

/-- **Equality of keys**, part by part. Timestamps are compared by value. -/
def PointKey.eq (a b : PointKey) : Bool :=
  a.labels == b.labels && a.scrape.eq b.scrape && a.created.eq b.created && a.written == b.written

theorem Number.eq_self {n : Number} (h : n.isNaN = false) : n.eq n = true := by
  rw [eq_eq_order h h, beq_iff_eq]
  exact Std.ReflCmp.compare_self

/-- Of two elements one comes before the other, or they tie. -/
theorem exactlyOne_compare {α : Type} {cmp : α → α → Ordering} [Std.OrientedCmp cmp] (a b : α) :
    ExactlyOne (cmp a b = .lt) (cmp a b = .eq) (cmp b a = .lt) := by
  have hswap : cmp b a = (cmp a b).swap := Std.OrientedCmp.eq_swap
  rw [hswap]
  cases cmp a b <;> simp [ExactlyOne]

namespace DataPoint

variable {p q : DataPoint}

/-- **The key of a point.** -/
def key (p : DataPoint) : PointKey where
  labels := p.labels.toExposedList
  scrape := p.scrape.number
  created := p.created.number
  written := p.written

/-- **Points with the same key are equal**: the written forms say all. -/
theorem eq_of_key_eq (h : p.key.eq q.key = true) : p = q := by
  simp only [PointKey.eq, Bool.and_eq_true, beq_iff_eq] at h
  exact written_injective h.2

/-- A point whose timestamps are numbers has its own key. -/
theorem key_eq_self (h : p.isTimed = true) : p.key.eq p.key = true := by
  simp only [isTimed, Bool.and_eq_true, Bool.not_eq_true'] at h
  simp only [PointKey.eq, key, Number.eq_self h.1, Number.eq_self h.2, beq_self_eq_true, Bool.and_self]

theorem order_eq_eq_iff : order p q = .eq ↔ p = q := by
  constructor
  · exact eq_of_order_eq
  · rintro rfl
    exact Std.ReflCmp.compare_self

/-- **Of two points exactly one comes before the other, or they are equal**, if all timestamps are numbers. -/
theorem exactlyOne_precedes (hp : p.isTimed = true) (hq : q.isTimed = true) :
    ExactlyOne (p.precedes q = true) (p = q) (q.precedes p = true) := by
  rw [precedes_eq_order hp hq, precedes_eq_order hq hp, beq_iff_eq, beq_iff_eq, ← order_eq_eq_iff]
  exact exactlyOne_compare p q

/-- **The sort key separates points.** Points whose timestamps are numbers have the same key exactly if they are the same
in every field: in the class, the names and values of all labels, and the sort and sign of every number. So exactly one of
them comes before the other, unless they are the same. -/
theorem key_separates (p q : DataPoint) (hp : p.isTimed = true) (hq : q.isTimed = true) :
    (p.key.eq q.key = true ↔ p = q) ∧ ExactlyOne (p.precedes q = true) (p = q) (q.precedes p = true) := by
  refine ⟨⟨eq_of_key_eq, ?_⟩, exactlyOne_precedes hp hq⟩
  rintro rfl
  exact key_eq_self hp

end DataPoint

/-! ### States whose names imitate the written form -/

def StateSet.twoStates : StateSet where
  toList := [⟨"idle", true⟩, ⟨"stop", false⟩]
  nonempty := by decide
  named := by decide
  increasing := by decide

/-- One state, whose name reads like the written form of those two. -/
def StateSet.imitation : StateSet where
  toList := [⟨"idle', enabled=True), State(name='stop", false⟩]
  nonempty := by decide
  named := by decide
  increasing := by decide

/-- A point with states, without labels and timestamps. -/
def DataPoint.ofStateSet (states : StateSet) : DataPoint :=
  .ofParts .empty .zero .zero (.stateSet states)

/-- Two states and the imitation of them have different keys, and so have two gauges at one that are numbers of
different sorts. -/
theorem DataPoint.key_imitation :
    (DataPoint.ofStateSet .twoStates).key.eq (DataPoint.ofStateSet .imitation).key = false ∧
      (DataPoint.ofParts .empty .zero .zero (.gauge (.whole 1) none)).key.eq
        (DataPoint.ofParts .empty .zero .zero (.gauge (.truth true) none)).key = false := by
  have hstates : DataPoint.ofStateSet .twoStates ≠ DataPoint.ofStateSet .imitation := by
    intro h
    have hsets := Measurement.stateSet.inj (congrArg DataPoint.measurement h)
    exact absurd (congrArg (fun s : StateSet => s.toList.length) hsets) (by decide)
  have hsorts : DataPoint.ofParts .empty .zero .zero (.gauge (.whole 1) none) ≠
      DataPoint.ofParts .empty .zero .zero (.gauge (.truth true) none) := by
    intro h
    have hvalues := Measurement.gauge.inj (congrArg DataPoint.measurement h)
    cases hvalues.1
  constructor
  · rw [← Bool.not_eq_true, (DataPoint.key_separates _ _ rfl rfl).1]
    exact hstates
  · rw [← Bool.not_eq_true, (DataPoint.key_separates _ _ rfl rfl).1]
    exact hsorts

end Telemetry
