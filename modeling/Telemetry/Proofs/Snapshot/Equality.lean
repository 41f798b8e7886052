import Mathlib.Data.List.Forall2
import Mathlib.Data.List.Nodup
import Mathlib.Data.String.Basic
import Telemetry.Proofs.Snapshot.Canonical
import Telemetry.Proofs.Steps

/-!
# Equal snapshots

Snapshots are compared point by point, in order, and points are compared by value. Where labels and timestamps of
points tie, their order is that of their written forms, which tell numbers apart that are equal by value. So points
that can be paired off with equal ones need not make equal snapshots: the snapshots are equal exactly if the points
can be paired off so that those of one place are written in one order on both sides. Where no two points are at one
place, this is no condition.

## Main definitions

* `KeepsOrder`: pairs in which the second elements are in the order of the first ones
* `DataPoint.place`: labels and timestamps of a point, as the order of points compares them
* `Pairing`: the points of two lists, paired off with points that are equal by value
* `WrittenInOrder`: pairs of points that are written in one order

## Main results

* `forall₂_arrange_iff`: which lists are related element by element once they are arranged
* `DataPoint.order_eq_then`: points are ordered by their places, and at one place by their written forms
* `Snapshot.eq_of_nodup_places`: without points at one place, snapshots of equal points are equal
* `Snapshot.eq_iff_exists_pairing`: which snapshots of equal points are equal
-/

namespace Telemetry

/-! ## Arranged pairs -/

section Pairs

variable {α : Type} {cmp : α → α → Ordering} {R : α → α → Prop} {xs ys : List α} {pairs : List (α × α)}

/-- **Pairs that keep an order**: where the first elements are in order, the second ones are not in the reverse
order. -/
def KeepsOrder (cmp : α → α → Ordering) (pairs : List (α × α)) : Prop :=
  ∀ a ∈ pairs, ∀ b ∈ pairs, cmp a.1 b.1 = .lt → (cmp a.2 b.2).isLE = true

/-- The order of pairs: by their first elements, then by their second ones. -/
def pairOrder (cmp : α → α → Ordering) : α × α → α × α → Ordering :=
  compareLex (fun a b => cmp a.1 b.1) fun a b => cmp a.2 b.2

instance [htrans : Std.TransCmp cmp] : Std.TransCmp (pairOrder cmp) := by
  let _ : Ord α := ⟨cmp⟩
  have : Std.TransOrd α := htrans
  exact inferInstanceAs (Std.TransCmp (compareLex (compareOn Prod.fst) (compareOn Prod.snd)))

variable [Std.TransCmp cmp]

/-- Ordered lists, put side by side, keep the order. -/
theorem keepsOrder_of_pairwise
    (hfst : (pairs.map Prod.fst).Pairwise fun a b => (cmp a b).isLE = true)
    (hsnd : (pairs.map Prod.snd).Pairwise fun a b => (cmp a b).isLE = true) : KeepsOrder cmp pairs := by
  have hboth := (List.pairwise_map.1 hfst).and (List.pairwise_map.1 hsnd)
  intro a ha b hb hlt
  obtain ⟨i, hi, rfl⟩ := List.mem_iff_getElem.1 ha
  obtain ⟨j, hj, rfl⟩ := List.mem_iff_getElem.1 hb
  rcases Nat.lt_trichotomy i j with hij | rfl | hji
  · exact (List.pairwise_iff_getElem.1 hboth i j hi hj hij).2
  · exact Std.ReflCmp.isLE_rfl
  · -- The pairs stand the other way round, and so do their first elements.
    have hle := (List.pairwise_iff_getElem.1 hboth j i hj hi hji).1
    have hswap : cmp pairs[j].1 pairs[i].1 = (cmp pairs[i].1 pairs[j].1).swap := Std.OrientedCmp.eq_swap
    rw [hswap, hlt] at hle
    cases hle

/-- Pairs that keep an order have both sides in order once they are arranged. -/
theorem KeepsOrder.pairwise_arrange (h : KeepsOrder cmp pairs) :
    ((arrange (pairOrder cmp) pairs).map Prod.fst).Pairwise (fun a b => (cmp a b).isLE = true) ∧
      ((arrange (pairOrder cmp) pairs).map Prod.snd).Pairwise fun a b => (cmp a b).isLE = true := by
  have hordered : (arrange (pairOrder cmp) pairs).Pairwise fun a b => (pairOrder cmp a b).isLE = true :=
    Telemetry.pairwise_arrange pairs
  rw [List.pairwise_map, List.pairwise_map, ← List.pairwise_and_iff]
  refine hordered.imp_of_mem fun {a b} ha hb hab => ?_
  rw [mem_arrange] at ha hb
  have hkeeps := h a ha b hb
  rw [pairOrder, compareLex] at hab
  revert hkeeps hab
  cases cmp a.1 b.1 <;> simp

/-- An ordered list is what its elements are arranged into, if only equal elements tie. -/
theorem arrange_eq_of_pairwise (hties : ∀ a b, cmp a b = .eq → a = b) (hperm : xs.Perm ys)
    (hordered : xs.Pairwise fun a b => (cmp a b).isLE = true) : arrange cmp ys = xs := by
  rw [← arrange_eq_of_perm (fun a _ b _ => hties a b) hperm]
  exact arrange_of_pairwise hordered

/-- **Arranged lists are related element by element** if and only if their elements can be paired off so that those
of a pair are related and the pairs keep the order. -/
theorem forall₂_arrange_iff (hties : ∀ a b, cmp a b = .eq → a = b) :
    List.Forall₂ R (arrange cmp xs) (arrange cmp ys) ↔
      ∃ pairs : List (α × α), (pairs.map Prod.fst).Perm xs ∧ (pairs.map Prod.snd).Perm ys ∧
        (∀ a ∈ pairs, R a.1 a.2) ∧ KeepsOrder cmp pairs := by
  constructor
  · -- The arranged lists side by side are such pairs.
    intro h
    have hlength := h.length_eq
    have hfst : ((arrange cmp xs).zip (arrange cmp ys)).map Prod.fst = arrange cmp xs :=
      List.map_fst_zip (Nat.le_of_eq hlength)
    have hsnd : ((arrange cmp xs).zip (arrange cmp ys)).map Prod.snd = arrange cmp ys :=
      List.map_snd_zip (Nat.le_of_eq hlength.symm)
    refine ⟨(arrange cmp xs).zip (arrange cmp ys), ?_, ?_, ?_, keepsOrder_of_pairwise ?_ ?_⟩
    · rw [hfst]
      exact arrange_perm cmp xs
    · rw [hsnd]
      exact arrange_perm cmp ys
    · intro a ha
      exact (List.forall₂_iff_zip.1 h).2 ha
    · rw [hfst]
      exact Telemetry.pairwise_arrange xs
    · rw [hsnd]
      exact Telemetry.pairwise_arrange ys
  · rintro ⟨pairs, hfst, hsnd, hrelated, hkeeps⟩
    have hperm := arrange_perm (pairOrder cmp) pairs
    obtain ⟨hfstordered, hsndordered⟩ := hkeeps.pairwise_arrange
    rw [arrange_eq_of_pairwise hties ((hperm.map _).trans hfst) hfstordered,
      arrange_eq_of_pairwise hties ((hperm.map _).trans hsnd) hsndordered]
    exact forall₂_map_map fun a ha => hrelated a (hperm.mem_iff.1 ha)

end Pairs

/-! ## Points that are equal by value -/

/-- Numbers that are equal by value are at one place. -/
theorem Number.exists_place?_of_eq {m n : Number} (h : m.eq n = true) :
    ∃ place, m.place? = some place ∧ n.place? = some place := by
  unfold eq at h
  split at h
  · next p q hp hq => exact ⟨q, by rw [hp, beq_iff_eq.1 h], hq⟩
  · cases h

/-- Measurements that are equal by value are of one class. -/
theorem Measurement.pointClass_eq_of_eq {m n : Measurement} (h : m.eq n = true) :
    m.pointClass = n.pointClass := by
  cases m <;> cases n <;> first | rfl | cases h

namespace DataPoint

variable {p q p' q' : DataPoint}

/-- **The place of a point** among others: its labels and its timestamps, as the order of points compares them. -/
def place (p : DataPoint) : List String × Option Extended × Option Extended :=
  (p.labels.key, p.scrape.number.place?, p.created.number.place?)

def placeOrder : List String × Option Extended × Option Extended →
    List String × Option Extended × Option Extended → Ordering :=
  compareLex (compareOn (·.1)) (compareLex (compareOn (·.2.1)) (compareOn (·.2.2)))

theorem placeOrder_eq_eq_iff {a b : List String × Option Extended × Option Extended} :
    placeOrder a b = .eq ↔ a = b := by
  simp only [placeOrder, compareLex, compareOn, Ordering.then_eq_eq, Std.LawfulEqOrd.compare_eq_iff_eq]
  rw [Prod.ext_iff, Prod.ext_iff]

/-- **Points are ordered by their places**, and at one place by their written forms. -/
theorem order_eq_then (p q : DataPoint) :
    order p q = (placeOrder p.place q.place).then (compare p.written q.written) := by
  simp only [order, placeOrder, place, compareLex, compareOn, Ordering.then_assoc]

/-- At one place, points are in order if their written forms are. -/
theorem isLE_order_iff_of_place (hplace : p.place = q.place) :
    (order p q).isLE = true ↔ p.written ≤ q.written := by
  rw [order_eq_then, placeOrder_eq_eq_iff.2 hplace, Ordering.eq_then]
  exact Std.LawfulBCmp.isLE_iff_le

/-- What the written forms of points have to be like so that others at the same places are not in the reverse
order. -/
theorem isLE_order_of_lt_iff (hp : p.place = p'.place) (hq : q.place = q'.place) :
    (order p q = .lt → (order p' q').isLE = true) ↔
      (p.place = q.place → p.written < q.written → p'.written ≤ q'.written) := by
  by_cases hplace : p.place = q.place
  · have hothers : p'.place = q'.place := by rw [← hp, hplace, hq]
    rw [isLE_order_iff_of_place hothers, order_eq_then, placeOrder_eq_eq_iff.2 hplace, Ordering.eq_then,
      compare_lt_iff_lt]
    simp [hplace]
  · -- At different places, the written forms do not count.
    have hne := mt placeOrder_eq_eq_iff.1 hplace
    rw [order_eq_then, order_eq_then, ← hp, ← hq]
    simp only [hplace, false_implies, iff_true]
    revert hne
    cases placeOrder p.place q.place <;> simp

theorem isTimed_of_place? {scrape created : Extended} (hscrape : p.scrape.number.place? = some scrape)
    (hcreated : p.created.number.place? = some created) : p.isTimed = true := by
  rw [isTimed, Number.isNaN_eq_false_iff.2 ⟨scrape, hscrape⟩, Number.isNaN_eq_false_iff.2 ⟨created, hcreated⟩]
  rfl

/-- **Points that are equal by value** are at one place, and timed. -/
theorem place_eq_of_eq (h : p.eq q = true) : p.place = q.place ∧ p.isTimed = true ∧ q.isTimed = true := by
  simp only [eq, Bool.and_eq_true, beq_iff_eq] at h
  obtain ⟨⟨⟨hlabels, hcreated⟩, hscrape⟩, -⟩ := h
  obtain ⟨created, hpcreated, hqcreated⟩ := Number.exists_place?_of_eq hcreated
  obtain ⟨scrape, hpscrape, hqscrape⟩ := Number.exists_place?_of_eq hscrape
  refine ⟨?_, isTimed_of_place? hpscrape hpcreated, isTimed_of_place? hqscrape hqcreated⟩
  rw [place, place, hlabels, hpcreated, hqcreated, hpscrape, hqscrape]

theorem pointClass_eq_of_eq (h : p.eq q = true) : p.pointClass = q.pointClass := by
  simp only [eq, Bool.and_eq_true] at h
  exact Measurement.pointClass_eq_of_eq h.2

/-- Timed points are settled into the order in which they are. -/
theorem settle_eq_of_pairwise {ps qs : List DataPoint} (htimed : ∀ p ∈ ps, p.isTimed = true)
    (hperm : qs.Perm ps) (hordered : qs.Pairwise fun p q => (order p q).isLE = true) :
    settle precedes ps = qs := by
  rw [settle_eq_arrange htimed]
  exact arrange_eq_of_pairwise (fun p q => eq_of_order_eq) hperm hordered

/-- Written forms are compared character by character. -/
theorem written_lt_iff : p.written < q.written ↔ p.display.chars < q.display.chars := by
  rw [String.lt_iff_toList_lt]
  simp only [written, Display.render, String.toList_ofList]

end DataPoint

/-! ## Pairings -/

/-- **Equal points in pairs**: the points of two lists, paired off with points that are equal by value. -/
structure Pairing (ps qs : List DataPoint) (pairs : List (DataPoint × DataPoint)) : Prop where
  firsts : (pairs.map Prod.fst).Perm ps
  seconds : (pairs.map Prod.snd).Perm qs
  equal : ∀ a ∈ pairs, a.1.eq a.2 = true

/-- **Pairs that are written in one order**: of pairs at one place, the first points are not written in the reverse
order of the second ones. -/
def WrittenInOrder (pairs : List (DataPoint × DataPoint)) : Prop :=
  ∀ a ∈ pairs, ∀ b ∈ pairs, a.1.place = b.1.place → a.1.written < b.1.written → a.2.written ≤ b.2.written

namespace Pairing

variable {ps qs : List DataPoint} {pairs : List (DataPoint × DataPoint)}

theorem forall_firsts_iff (h : Pairing ps qs pairs) {P : DataPoint → Prop} :
    (∀ p ∈ ps, P p) ↔ ∀ a ∈ pairs, P a.1 := by
  simp only [← h.firsts.mem_iff, List.forall_mem_map]

theorem forall_seconds_iff (h : Pairing ps qs pairs) {P : DataPoint → Prop} :
    (∀ q ∈ qs, P q) ↔ ∀ a ∈ pairs, P a.2 := by
  simp only [← h.seconds.mem_iff, List.forall_mem_map]

/-- Points that can be paired off with equal ones are timed. -/
theorem timed (h : Pairing ps qs pairs) :
    (∀ p ∈ ps, p.isTimed = true) ∧ ∀ q ∈ qs, q.isTimed = true := by
  rw [h.forall_firsts_iff, h.forall_seconds_iff]
  constructor
  · intro a ha
    exact (DataPoint.place_eq_of_eq (h.equal a ha)).2.1
  · intro a ha
    exact (DataPoint.place_eq_of_eq (h.equal a ha)).2.2

/-- Points that can be paired off with equal ones are of one class on both sides or on neither. -/
theorem forall_pointClass_iff (h : Pairing ps qs pairs) (c : PointClass) :
    (∀ p ∈ ps, p.pointClass = c) ↔ ∀ q ∈ qs, q.pointClass = c := by
  rw [h.forall_firsts_iff, h.forall_seconds_iff]
  exact forall₂_congr fun a ha => by rw [DataPoint.pointClass_eq_of_eq (h.equal a ha)]

theorem keepsOrder_iff (h : Pairing ps qs pairs) :
    KeepsOrder DataPoint.order pairs ↔ WrittenInOrder pairs := by
  have hiff (a) (ha : a ∈ pairs) (b) (hb : b ∈ pairs) := DataPoint.isLE_order_of_lt_iff
    (DataPoint.place_eq_of_eq (h.equal a ha)).1 (DataPoint.place_eq_of_eq (h.equal b hb)).1
  constructor
  · intro hkeeps a ha b hb
    exact (hiff a ha b hb).1 (hkeeps a ha b hb)
  · intro hwritten a ha b hb
    exact (hiff a ha b hb).2 (hwritten a ha b hb)

/-- **Settled points are equal one by one** if and only if they can be paired off with equal ones so that the pairs are
written in one order. -/
theorem forall₂_settle_iff (h : Pairing ps qs pairs) :
    List.Forall₂ (fun p q => p.eq q = true) (settle DataPoint.precedes ps) (settle DataPoint.precedes qs) ↔
      ∃ others, Pairing ps qs others ∧ WrittenInOrder others := by
  rw [DataPoint.settle_eq_arrange h.timed.1, DataPoint.settle_eq_arrange h.timed.2,
    forall₂_arrange_iff fun p q => DataPoint.eq_of_order_eq]
  constructor
  · rintro ⟨others, hfirsts, hseconds, hequal, hkeeps⟩
    have hothers : Pairing ps qs others := ⟨hfirsts, hseconds, hequal⟩
    exact ⟨others, hothers, hothers.keepsOrder_iff.1 hkeeps⟩
  · rintro ⟨others, hothers, hwritten⟩
    exact ⟨others, hothers.firsts, hothers.seconds, hothers.equal, hothers.keepsOrder_iff.2 hwritten⟩

/-- Where no two points are at one place, all pairs are written in one order. -/
theorem writtenInOrder_of_nodup (h : Pairing ps qs pairs) (hplaces : (ps.map DataPoint.place).Nodup) :
    WrittenInOrder pairs := by
  have hnodup : (pairs.map fun a => a.1.place).Nodup := by
    have hperm := h.firsts.map DataPoint.place
    rw [List.map_map] at hperm
    exact hperm.nodup_iff.2 hplaces
  intro a ha b hb hplace hlt
  rw [List.inj_on_of_nodup_map hnodup ha hb hplace] at hlt
  exact absurd hlt (lt_irrefl _)

end Pairing

/-! ## Snapshots -/

namespace Snapshot

variable {s t : Snapshot} {ps qs : List DataPoint} {pairs : List (DataPoint × DataPoint)}

theorem eqPoints_iff : eqPoints ps qs = true ↔ List.Forall₂ (fun p q => p.eq q = true) ps qs := by
  induction ps generalizing qs with
  | nil => cases qs <;> simp [eqPoints]
  | cons p ps ih => cases qs <;> simp [eqPoints, ih]

/-- Snapshots are equal if they are of one metric and their points are equal one by one. -/
theorem eq_iff : s.eq t = true ↔
    s.kind = t.kind ∧ s.metadata = t.metadata ∧
      List.Forall₂ (fun p q => p.eq q = true) s.points t.points := by
  simp [eq, eqPoints_iff, and_assoc]

/-- **Without points at one place, snapshots of equal points are equal.** -/
theorem eq_of_nodup_places (h : Pairing s.points t.points pairs) (hkind : s.kind = t.kind)
    (hmetadata : s.metadata = t.metadata) (hplaces : (s.points.map DataPoint.place).Nodup) :
    s.eq t = true := by
  have hequal := h.forall₂_settle_iff.2 ⟨pairs, h, h.writtenInOrder_of_nodup hplaces⟩
  rw [settle_of_chained s.ordered, settle_of_chained t.ordered] at hequal
  exact eq_iff.2 ⟨hkind, hmetadata, hequal⟩

variable {kind : Datum} {metadata : Option Metadata}

/-- If a snapshot is made of points, one is made of others of their class. -/
theorem exists_make_of_classed (hclassed : ∀ c, (∀ p ∈ ps, p.pointClass = c) → ∀ q ∈ qs, q.pointClass = c)
    (hs : make kind metadata (some (ps.map .point)) = .ok s) :
    ∃ t, make kind metadata (some (qs.map .point)) = .ok t := by
  obtain ⟨hkind, hmetadata, hfirst, -⟩ := make_points_eq_ok_iff.1 hs
  have hsecond := hclassed _ hfirst
  exact ⟨sorted s.kind s.metadata qs s.unitAllowed hsecond,
    make_points_eq_ok_iff.2 ⟨hkind, hmetadata, hsecond, rfl⟩⟩

/-- **Which snapshots of equal points are equal.** Of points that can be paired off with equal ones, snapshots are made
on both sides or on neither, and they are equal exactly if the points can be paired off so that the pairs are written
in one order. -/
theorem eq_iff_exists_pairing (h : Pairing ps qs pairs) (kind : Datum) (metadata : Option Metadata) :
    (∃ s t, make kind metadata (some (ps.map .point)) = .ok s ∧
      make kind metadata (some (qs.map .point)) = .ok t ∧
        (s.eq t = true ↔ ∃ others, Pairing ps qs others ∧ WrittenInOrder others)) ∨
    (∃ e, make kind metadata (some (ps.map .point)) = .error e) ∧
      ∃ e, make kind metadata (some (qs.map .point)) = .error e := by
  cases hs : make kind metadata (some (ps.map .point)) with
  | error e =>
    refine .inr ⟨⟨e, rfl⟩, ?_⟩
    cases ht : make kind metadata (some (qs.map .point)) with
    | error e' => exact ⟨e', rfl⟩
    | ok t =>
      obtain ⟨s, hs'⟩ := exists_make_of_classed (fun c => (h.forall_pointClass_iff c).2) ht
      rw [hs] at hs'
      cases hs'
  | ok s =>
    obtain ⟨t, ht⟩ := exists_make_of_classed (fun c => (h.forall_pointClass_iff c).1) hs
    refine .inl ⟨s, t, rfl, ht, ?_⟩
    obtain ⟨hskind, hsmetadata, -, hspoints⟩ := make_points_eq_ok_iff.1 hs
    obtain ⟨htkind, htmetadata, -, htpoints⟩ := make_points_eq_ok_iff.1 ht
    have hkind : s.kind = t.kind := Option.some.inj (hskind.symm.trans htkind)
    have hmetadata : s.metadata = t.metadata := Option.some.inj (hsmetadata.symm.trans htmetadata)
    rw [eq_iff, hspoints, htpoints, h.forall₂_settle_iff]
    exact ⟨fun hequal => hequal.2.2, fun hothers => ⟨hkind, hmetadata, hothers⟩⟩

/-- Snapshots of gauges without labels and timestamps can always be made. -/
theorem exists_make_gauges (ns : List Number) :
    ∃ s, make (.text "gauge") (some drift) (some ((ns.map DataPoint.gauge).map .point)) = .ok s := by
  have hclassed : ∀ p ∈ ns.map DataPoint.gauge, p.pointClass = Kind.gauge.pointClass := by
    intro p hp
    obtain ⟨n, -, rfl⟩ := List.mem_map.1 hp
    rfl
  exact ⟨sorted .gauge drift _ (fun h => by cases h) hclassed,
    make_points_eq_ok_iff.2 ⟨Kind.ofDatum?_word .gauge, rfl, hclassed, rfl⟩⟩

/-- Zero and one are written in one order in all sorts, so the snapshots are equal. -/
theorem eq_gauges_of_pairing :
    Pairing [.gauge (.whole 0), .gauge (.whole 1)] [.gauge .zeroReal, .gauge (.truth true)]
        [(.gauge (.whole 0), .gauge .zeroReal), (.gauge (.whole 1), .gauge (.truth true))] ∧
      ∃ s t, make (.text "gauge") (some drift)
          (some ([.gauge (.whole 0), .gauge (.whole 1)].map .point)) = .ok s ∧
        make (.text "gauge") (some drift)
          (some ([.gauge .zeroReal, .gauge (.truth true)].map .point)) = .ok t ∧
        s.eq t = true := by
  have hpairing : Pairing [.gauge (.whole 0), .gauge (.whole 1)] [.gauge .zeroReal, .gauge (.truth true)]
      [(.gauge (.whole 0), .gauge .zeroReal), (.gauge (.whole 1), .gauge (.truth true))] :=
    ⟨.refl _, .refl _, by decide +kernel⟩
  have hwritten : WrittenInOrder
      [(.gauge (.whole 0), .gauge .zeroReal), (.gauge (.whole 1), .gauge (.truth true))] := by
    simp only [WrittenInOrder, ← not_lt, DataPoint.written_lt_iff]
    decide +kernel
  refine ⟨hpairing, ?_⟩
  obtain ⟨s, t, hs, ht, hiff⟩ | ⟨⟨e, he⟩, -⟩ :=
    eq_iff_exists_pairing hpairing (.text "gauge") (some drift)
  · exact ⟨s, t, hs, ht, hiff.2 ⟨_, hpairing, hwritten⟩⟩
  · obtain ⟨s, hs⟩ := exists_make_gauges [.whole 0, .whole 1]
    cases hs.symm.trans he

/-- **Snapshots of equal points may differ**: as they are written, -1 comes before 0.0 and behind -0.0, which are equal
by value. -/
theorem equal_gauges_apart :
    Pairing [.gauge .zeroReal, .gauge (.whole (-1))] [.gauge (.real (.zero true)), .gauge (.whole (-1))]
        [(.gauge .zeroReal, .gauge (.real (.zero true))), (.gauge (.whole (-1)), .gauge (.whole (-1)))] ∧
      ∃ s t, make (.text "gauge") (some drift)
          (some ([.gauge .zeroReal, .gauge (.whole (-1))].map .point)) = .ok s ∧
        make (.text "gauge") (some drift)
          (some ([.gauge (.real (.zero true)), .gauge (.whole (-1))].map .point)) = .ok t ∧
        s.eq t = false := by
  refine ⟨⟨.refl _, .refl _, by decide +kernel⟩, ?_⟩
  obtain ⟨s, hs⟩ := exists_make_gauges [.zeroReal, .whole (-1)]
  obtain ⟨t, ht⟩ := exists_make_gauges [.real (.zero true), .whole (-1)]
  refine ⟨s, t, hs, ht, ?_⟩
  have hordered {m n : Number} (h : ¬(DataPoint.gauge n).display.chars < (DataPoint.gauge m).display.chars) :
      [DataPoint.gauge m, .gauge n].Pairwise fun p q => (DataPoint.order p q).isLE = true := by
    have hplace : (DataPoint.gauge m).place = (DataPoint.gauge n).place := rfl
    rw [List.pairwise_pair, DataPoint.isLE_order_iff_of_place hplace, ← not_lt, DataPoint.written_lt_iff]
    exact h
  have hspoints : s.points = [.gauge (.whole (-1)), .gauge .zeroReal] := by
    rw [(make_points_eq_ok_iff.1 hs).2.2.2]
    exact DataPoint.settle_eq_of_pairwise (by decide) (.swap _ _ []) (hordered (by decide +kernel))
  have htpoints : t.points = [.gauge (.real (.zero true)), .gauge (.whole (-1))] := by
    rw [(make_points_eq_ok_iff.1 ht).2.2.2]
    exact DataPoint.settle_eq_of_pairwise (by decide) (.refl _) (hordered (by decide +kernel))
  have hfirst : DataPoint.eq (.gauge (.whole (-1))) (.gauge (.real (.zero true))) = false := by decide +kernel
  rw [Bool.eq_false_iff, ne_eq, eq_iff, hspoints, htpoints, List.forall₂_cons, hfirst]
  exact fun h => Bool.noConfusion h.2.2.1

end Snapshot

end Telemetry
