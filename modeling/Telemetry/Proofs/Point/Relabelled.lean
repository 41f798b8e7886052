import Telemetry.Proofs.Display.Reading
import Telemetry.Proofs.Exporter.Duplicates
import Telemetry.Proofs.Labels.Union
import Telemetry.Proofs.Snapshot.Equality

/-!
# Relabelled points

Points whose labels are exposed alike stay so when labels are added to both, and stay in their order: where the label
sets differ, they differ in the same names as before, and it is these names that decide which point is written first.
Points whose labels are not exposed alike may be in another order afterwards.

## Main definitions

* `Labels.FirstDifference`: the first labels in which two label sets differ that are exposed alike
* `DataPoint.behindLabels`: the written form of a point behind its labels

## Main results

* `Labels.key_eq_of_merge`: label sets that are exposed alike still are when they are united with a third
* `Labels.FirstDifference.merge`: they still differ in the same labels
* `DataPoint.written_lt_iff_of_firstDifference`: these labels decide which point is written first
* `DataPoint.order_relabel`: points whose labels are exposed alike stay in their order
-/

namespace Telemetry

/-! ## Comparing lists -/

section Comparison

variable {α : Type} [LinearOrder α] {xs ys : List α}

/-- What two lists start with does not count. -/
theorem append_left_lt_iff (lead : List α) : lead ++ xs < lead ++ ys ↔ xs < ys := by
  induction lead with
  | nil => rfl
  | cons a lead ih =>
    rw [List.cons_append, List.cons_append, List.cons_lt_cons_iff, ih]
    simp

/-- Where neither list is the beginning of the other, what is behind them does not count. -/
theorem append_lt_append_iff (h : ∀ more more', xs ++ more ≠ ys ++ more') (rest rest' : List α) :
    xs ++ rest < ys ++ rest' ↔ xs < ys := by
  induction xs generalizing ys with
  | nil => exact absurd (List.append_nil ys).symm (h ys [])
  | cons a xs ih =>
    cases ys with
    | nil => exact absurd (List.append_nil _) (h [] (a :: xs))
    | cons b ys =>
      rw [List.cons_append, List.cons_append, List.cons_lt_cons_iff, List.cons_lt_cons_iff]
      refine or_congr_right (and_congr_right fun hab => ih fun more more' heq => h more more' ?_)
      rw [hab, List.cons_append, List.cons_append, heq]

end Comparison

namespace Labels

variable {extra l m u v : Labels} {x y z : Label}

/-! ## Labels that are exposed alike -/

/-- **Label sets are exposed alike** if they have the same exposed names and values. -/
theorem key_eq_iff : l.key = m.key ↔ ∀ entry, entry ∈ l.toExposedList ↔ entry ∈ m.toExposedList := by
  have hnodup (l : Labels) : l.toExposedList.Nodup := List.Nodup.of_map _ l.nodup_exposed_keys
  rw [key_eq_iff_order, ← sameEntries_toExposedList_iff, sameEntries_iff_perm l.nodup_exposed_keys m.nodup_exposed_keys,
    List.perm_ext_iff_of_nodup (hnodup l) (hnodup m)]

/-- What is exposed of a union is what is exposed of both. -/
theorem mem_toExposedList_merge (hu : l.merge extra = .ok u) (entry : String × String) :
    entry ∈ u.toExposedList ↔ entry ∈ l.toExposedList ∨ entry ∈ extra.toExposedList := by
  simp only [toExposedList, List.mem_map, merge_eq_ok_iff.1 hu, or_and_right, exists_or]

/-- **Label sets that are exposed alike still are when they are united with a third.** -/
theorem key_eq_of_merge (hkey : l.key = m.key) (hu : l.merge extra = .ok u) (hv : m.merge extra = .ok v) :
    u.key = v.key := by
  rw [key_eq_iff] at hkey ⊢
  intro entry
  rw [mem_toExposedList_merge hu, mem_toExposedList_merge hv, hkey]

/-! ## The first difference -/

/-- **The first labels in which two label sets differ** that are exposed alike: their names are exposed alike and are
not equal, and of the labels before them both sets have the same. -/
structure FirstDifference (l m : Labels) (x y : Label) : Prop where
  left : x ∈ l.labels
  right : y ∈ m.labels
  alike : x.exposedName = y.exposedName
  apart : x.name ≠ y.name
  before : ∀ z, Label.order z x = .lt → (z ∈ l.labels ↔ z ∈ m.labels)

/-- The labels in front of one are those of the set that come before it. -/
theorem mem_front_iff {front rest : List Label} (hl : l.labels = front ++ x :: rest) :
    z ∈ front ↔ z ∈ l.labels ∧ Label.order z x = .lt := by
  have hincreasing := l.increasing
  rw [hl] at hincreasing ⊢
  obtain ⟨-, hrest, hfront⟩ := List.pairwise_append.1 hincreasing
  constructor
  · intro hz
    exact ⟨List.mem_append_left _ hz, hfront z hz x List.mem_cons_self⟩
  · rintro ⟨hz, hlt⟩
    refine (List.mem_append.1 hz).resolve_right fun hback => ?_
    rcases List.mem_cons.1 hback with heq | hback
    · rw [heq, Label.order_eq_iff.2 rfl] at hlt
      cases hlt
    · have hswap : Label.order z x = (Label.order x z).swap := Std.OrientedCmp.eq_swap
      rw [hswap, (List.pairwise_cons.1 hrest).1 z hback] at hlt
      cases hlt

theorem increasing_front {front rest : List Label} (hl : l.labels = front ++ x :: rest) :
    Increasing Label.order front := by
  have hincreasing := l.increasing
  rw [hl] at hincreasing
  exact (List.pairwise_append.1 hincreasing).1

theorem order_eq_of_exposedName (h : x.exposedName = y.exposedName) (z : Label) :
    Label.order z x = Label.order z y := by
  show compare z.exposedName x.exposedName = compare z.exposedName y.exposedName
  rw [h]

/-- Lists of labels that are exposed alike and are not equal differ somewhere for the first time. -/
theorem exists_append_of_exposed_eq {xs ys : List Label}
    (h : (xs.map fun x => (x.exposedName, x.value)) = ys.map fun y => (y.exposedName, y.value)) (hne : xs ≠ ys) :
    ∃ front x y rest rest', xs = front ++ x :: rest ∧ ys = front ++ y :: rest' ∧
      x.exposedName = y.exposedName ∧ x.name ≠ y.name := by
  induction xs generalizing ys with
  | nil =>
    cases ys with
    | nil => exact absurd rfl hne
    | cons y ys => cases h
  | cons x xs ih =>
    cases ys with
    | nil => cases h
    | cons y ys =>
      simp only [List.map_cons, List.cons.injEq, Prod.mk.injEq] at h
      obtain ⟨⟨hexposed, hvalue⟩, h⟩ := h
      by_cases hname : x.name = y.name
      · -- The labels at the front are equal, so the difference is behind them.
        obtain rfl : x = y := by
          cases x
          cases y
          cases hname
          cases hvalue
          rfl
        obtain ⟨front, x', y', rest, rest', rfl, rfl, hdifference⟩ := ih h fun heq => hne (by rw [heq])
        exact ⟨x :: front, x', y', rest, rest', rfl, rfl, hdifference⟩
      · exact ⟨[], x, y, xs, ys, rfl, rfl, hexposed, hname⟩

/-- **Label sets that are exposed alike and are not equal differ somewhere for the first time.** -/
theorem exists_firstDifference (hkey : l.key = m.key) (hne : l ≠ m) : ∃ x y, FirstDifference l m x y := by
  rw [key_eq_flatMap, key_eq_flatMap] at hkey
  obtain ⟨front, x, y, rest, rest', hl, hm, halike, hapart⟩ :=
    exists_append_of_exposed_eq (flatMap_entry_inj hkey) fun h => hne (Labels.ext h)
  refine ⟨x, y, by simp [hl], by simp [hm], halike, hapart, fun z hz => ?_⟩
  have hz' : Label.order z y = .lt := (order_eq_of_exposedName halike z).symm.trans hz
  rw [← and_iff_left (a := z ∈ l.labels) hz, ← and_iff_left (a := z ∈ m.labels) hz', ← mem_front_iff hl,
    ← mem_front_iff hm]

namespace FirstDifference

/-- **Label sets that are united with a third still differ in the same labels.** -/
theorem merge (h : FirstDifference l m x y) (hu : l.merge extra = .ok u) (hv : m.merge extra = .ok v) :
    FirstDifference u v x y where
  left := (merge_eq_ok_iff.1 hu x).2 (.inl h.left)
  right := (merge_eq_ok_iff.1 hv y).2 (.inl h.right)
  alike := h.alike
  apart := h.apart
  before z hz := by rw [merge_eq_ok_iff.1 hu, merge_eq_ok_iff.1 hv, h.before z hz]

/-- Both sets have the same labels in front of the first difference, in the same order. -/
theorem exists_append (h : FirstDifference l m x y) :
    ∃ front rest rest', l.labels = front ++ x :: rest ∧ m.labels = front ++ y :: rest' := by
  obtain ⟨front, rest, hl⟩ := List.append_of_mem h.left
  obtain ⟨front', rest', hm⟩ := List.append_of_mem h.right
  have hmem (z : Label) : z ∈ front ↔ z ∈ front' := by
    rw [mem_front_iff hl, mem_front_iff hm, ← order_eq_of_exposedName h.alike z]
    exact and_congr_left (h.before z)
  obtain rfl := (increasing_front hl).eq_of_mem_iff (increasing_front hm) hmem
  exact ⟨front, rest, rest', hl, hm⟩

end FirstDifference

end Labels

/-! ## Written forms -/

namespace Display

/-- What stands in front of the first value of a record. -/
def recordLead (name field : String) : List Char :=
  name.toList ++ '(' :: (field.toList ++ ['='])

/-- What stands behind the first value of a record. -/
def behindFirst (fields : List (String × Display)) : List Char :=
  (if fields.isEmpty then [] else comma ++ fieldsChars fields) ++ [')']

theorem chars_record_cons (name field : String) (value : Display) (fields : List (String × Display)) :
    (record name ((field, value) :: fields)).chars =
      recordLead name field ++ (value.chars ++ behindFirst fields) := by
  rw [chars, fieldsChars, recordLead, behindFirst]
  simp only [List.append_assoc, List.cons_append, List.nil_append]

/-- What stands in front of an item in a tuple depends on the items in front of it alone. -/
def tupleLead (front : List Display) : List Char :=
  '(' :: front.flatMap fun item => item.chars ++ comma

theorem separated_append_cons (front : List Display) (item : Display) (rest : List Display) :
    separated chars (front ++ item :: rest) =
      (front.flatMap fun item => item.chars ++ comma) ++ separated chars (item :: rest) := by
  induction front with
  | nil => rfl
  | cons first front ih =>
    have hne : (front ++ item :: rest).isEmpty = false := by cases front <;> rfl
    rw [List.cons_append, separated, ih, hne, List.flatMap_cons]
    simp only [Bool.false_eq_true, if_false, List.append_assoc]

theorem exists_chars_tuple_append (front : List Display) (item : Display) (rest : List Display) :
    ∃ behind, (tuple (front ++ item :: rest)).chars = tupleLead front ++ (item.chars ++ behind) := by
  rw [chars_tuple, separated_append_cons, separated, tupleLead]
  simp only [List.append_assoc, List.cons_append]
  exact ⟨_, rfl⟩

end Display

namespace Labels

variable {l m : Labels} {x y : Label}

/-- What stands in front of a name in the written form of a label set: the names come first. -/
def writtenLead (front : List Label) : List Char :=
  Display.recordLead "Labels" "names" ++ Display.tupleLead (front.map fun z => .ofString z.name)

theorem exists_chars_display {front rest : List Label} (hl : l.labels = front ++ x :: rest) :
    ∃ behind, l.display.chars = writtenLead front ++ (Text.quoted x.name.toList ++ behind) := by
  have hnames : l.names.map Display.ofString =
      (front.map fun z => .ofString z.name) ++ .ofString x.name :: rest.map fun z => .ofString z.name := by
    rw [names, hl, List.map_map, List.map_append, List.map_cons]
    rfl
  obtain ⟨behind, hbehind⟩ := Display.exists_chars_tuple_append (front.map fun z => .ofString z.name)
    (.ofString x.name) (rest.map fun z => .ofString z.name)
  rw [display, Display.chars_record_cons, hnames, hbehind, writtenLead, Display.ofString, Display.chars]
  simp only [List.append_assoc]
  exact ⟨_, rfl⟩

/-- The written forms of label sets start alike up to the first name that differs. -/
theorem FirstDifference.exists_chars_display (h : FirstDifference l m x y) :
    ∃ lead rest rest', l.display.chars = lead ++ (Text.quoted x.name.toList ++ rest) ∧
      m.display.chars = lead ++ (Text.quoted y.name.toList ++ rest') := by
  obtain ⟨front, rest, rest', hl, hm⟩ := h.exists_append
  obtain ⟨behind, hbehind⟩ := Labels.exists_chars_display hl
  obtain ⟨behind', hbehind'⟩ := Labels.exists_chars_display hm
  exact ⟨writtenLead front, behind, behind', hbehind, hbehind'⟩

end Labels

namespace DataPoint

variable {p q : DataPoint} {extra u v : Labels} {x y : Label}

/-- **What stands behind the labels** in the written form of a point. -/
def behindLabels (p : DataPoint) : List Char :=
  Display.behindFirst
    ([("created_timestamp_millis", p.created.display), ("scrape_timestamp_millis", p.scrape.display)] ++
      p.measurement.displayFields)

theorem chars_display (p : DataPoint) :
    p.display.chars =
      Display.recordLead p.pointClass.title "labels" ++ (p.labels.display.chars ++ p.behindLabels) := by
  rw [display, List.cons_append, Display.chars_record_cons, behindLabels]

/-- Points with the same labels are written in the order of what stands behind these. -/
theorem written_lt_iff_of_labels (hclass : p.pointClass = q.pointClass) (h : p.labels = q.labels) :
    p.written < q.written ↔ p.behindLabels < q.behindLabels := by
  rw [written_lt_iff, chars_display, chars_display, hclass, h, append_left_lt_iff, append_left_lt_iff]

/-- **The first difference of the labels decides which point is written first.** -/
theorem written_lt_iff_of_firstDifference (hclass : p.pointClass = q.pointClass)
    (h : Labels.FirstDifference p.labels q.labels x y) :
    p.written < q.written ↔ Text.quoted x.name.toList < Text.quoted y.name.toList := by
  obtain ⟨lead, rest, rest', hp, hq⟩ := h.exists_chars_display
  have hquoted (more more' : List Char) :
      Text.quoted x.name.toList ++ more ≠ Text.quoted y.name.toList ++ more' := fun heq =>
    h.apart (String.toList_inj.1 (Text.quoted_append_inj heq).1)
  rw [written_lt_iff, chars_display, chars_display, hclass, hp, hq, append_left_lt_iff]
  simp only [List.append_assoc]
  rw [append_left_lt_iff, append_lt_append_iff hquoted]

/-- Points of one class whose labels are exposed alike are written in the same order when labels are added to both. -/
theorem written_relabel_lt_iff (hclass : p.pointClass = q.pointClass) (hkey : p.labels.key = q.labels.key)
    (hu : p.labels.merge extra = .ok u) (hv : q.labels.merge extra = .ok v) :
    (p.relabel u).written < (q.relabel v).written ↔ p.written < q.written := by
  have hclass' : (p.relabel u).pointClass = (q.relabel v).pointClass := hclass
  by_cases hlabels : p.labels = q.labels
  · -- Equal labels have one union, and what stands behind them stays the same.
    rw [← hlabels, hu] at hv
    have hunion : (p.relabel u).labels = (q.relabel v).labels := Except.ok.inj hv
    rw [written_lt_iff_of_labels hclass hlabels, written_lt_iff_of_labels hclass' hunion]
    rfl
  · obtain ⟨x, y, h⟩ := Labels.exists_firstDifference hkey hlabels
    have h' : Labels.FirstDifference (p.relabel u).labels (q.relabel v).labels x y := h.merge hu hv
    rw [written_lt_iff_of_firstDifference hclass h, written_lt_iff_of_firstDifference hclass' h']

/-- **Points whose labels are exposed alike stay in their order** when labels are added to both. -/
theorem order_relabel (hclass : p.pointClass = q.pointClass) (hkey : p.labels.key = q.labels.key)
    (hu : p.labels.merge extra = .ok u) (hv : q.labels.merge extra = .ok v) :
    order (p.relabel u) (q.relabel v) = order p q := by
  have hwritten : compare (p.relabel u).written (q.relabel v).written = compare p.written q.written := by
    cases h : compare p.written q.written with
    | lt =>
      rw [compare_lt_iff_lt] at h ⊢
      exact (written_relabel_lt_iff hclass hkey hu hv).2 h
    | eq =>
      rw [compare_eq_iff_eq] at h ⊢
      refine le_antisymm (not_lt.1 ?_) (not_lt.1 ?_)
      · rw [written_relabel_lt_iff hclass.symm hkey.symm hv hu, h]
        exact lt_irrefl _
      · rw [written_relabel_lt_iff hclass hkey hu hv, h]
        exact lt_irrefl _
    | gt =>
      rw [compare_gt_iff_gt] at h ⊢
      exact (written_relabel_lt_iff hclass.symm hkey.symm hv hu).2 h
  have hplace : placeOrder (p.relabel u).place (q.relabel v).place = placeOrder p.place q.place := by
    simp only [placeOrder, place, compareLex, compareOn, labels_relabel, hkey, Labels.key_eq_of_merge hkey hu hv,
      Std.ReflCmp.compare_self]
    rfl
  rw [order_eq_then, order_eq_then, hplace, hwritten]

/-- Points that are in order have labels that are in order. -/
theorem isLE_labels_of_isLE_order (h : (order p q).isLE = true) : (Labels.order p.labels q.labels).isLE = true := by
  have horder : order p q = (Labels.order p.labels q.labels).then ((Amount.order p.scrape q.scrape).then
      ((Amount.order p.created q.created).then (compare p.written q.written))) := rfl
  rw [horder] at h
  revert h
  cases Labels.order p.labels q.labels <;> simp

/-- What stands between points with the same labels has labels that are exposed alike. -/
theorem key_eq_of_isLE_order {r : DataPoint} (hlabels : p.labels = q.labels) (hpr : (order p r).isLE = true)
    (hrq : (order r q).isLE = true) : p.labels.key = r.labels.key := by
  have hle := isLE_labels_of_isLE_order hpr
  have hge := isLE_labels_of_isLE_order hrq
  rw [← hlabels] at hge
  have htie : Labels.order p.labels r.labels = .eq := Std.OrientedCmp.isLE_antisymm hle hge
  exact Labels.key_eq_iff_order.2 htie

end DataPoint

end Telemetry
