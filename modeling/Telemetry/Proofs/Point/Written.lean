import Telemetry.Point
import Telemetry.Proofs.Datum.Written

/-!
# Written points

Different points are written differently: the written form of a point shows its class, its labels, its
timestamps and all of its measurement. So the order of points, which falls back on the written form, has no
ties but equal points.

## Main results

* `DataPoint.readable_display`, `DataPoint.display_injective`: points have readable structures, different
  points different ones
* `DataPoint.written_injective`: different points are written differently
* `DataPoint.eq_of_order_eq`: points that tie are equal
-/

namespace Telemetry

open Display (IsWord ReadableFields readable_tuple_map)

/-! ## Parts of points -/

/-- Lists with the same two columns are equal, if the columns say what an element is. -/
theorem eq_of_map_eq {α β γ : Type} {f : α → β} {g : α → γ} {xs ys : List α}
    (hinj : ∀ a b, f a = f b → g a = g b → a = b) (hf : xs.map f = ys.map f)
    (hg : xs.map g = ys.map g) : xs = ys := by
  induction xs generalizing ys with
  | nil => exact (List.map_eq_nil_iff.1 hf.symm).symm
  | cons a xs ih =>
    cases ys with
    | nil => cases hf
    | cons b ys =>
      obtain ⟨hfa, hf⟩ := List.cons.inj hf
      obtain ⟨hga, hg⟩ := List.cons.inj hg
      rw [hinj a b hfa hga, ih hf hg]

theorem readable_ofString (s : String) : (Display.ofString s).Readable :=
  .text

theorem ofString_inj {s t : String} (h : Display.ofString s = Display.ofString t) : s = t :=
  String.toList_inj.1 (Display.text.inj h)

namespace Labels

theorem readable_display (l : Labels) : l.display.Readable := by
  have hnames := readable_tuple_map readable_ofString l.names
  have hvalues := readable_tuple_map readable_ofString l.values
  exact (ReadableFields.cons hnames (.cons hvalues .nil)).record

/-- Labels with the same names and values are equal. -/
theorem eq_of_names_values {l m : Labels} (hnames : l.names = m.names) (hvalues : l.values = m.values) :
    l = m := by
  apply Labels.ext
  refine eq_of_map_eq (fun a b hname hvalue => ?_) hnames hvalues
  obtain ⟨name, value⟩ := a
  obtain rfl : name = b.name := hname
  obtain rfl : value = b.value := hvalue
  rfl

theorem display_injective : Function.Injective display := by
  intro l m h
  simp only [display, Display.record.injEq, List.cons.injEq, Prod.mk.injEq, Display.tuple.injEq,
    true_and, and_true, List.map_inj_right fun _ _ => ofString_inj] at h
  exact eq_of_names_values h.1 h.2

end Labels

namespace Amount

theorem readable_display (a : Amount) : a.display.Readable :=
  .word a.number.isWord_chars

theorem display_injective : Function.Injective display := by
  intro a b h
  exact Amount.ext (Number.chars_injective (Display.word.inj h))

end Amount

namespace Exemplar

theorem readable_display (e : Exemplar) : e.display.Readable :=
  (ReadableFields.cons e.value.readable_display
    (.cons e.labels.readable_display
      (.cons e.timestamp.readable_display .nil))).record

theorem display_injective : Function.Injective display := by
  intro e f h
  simp only [display, Display.record.injEq, List.cons.injEq, Prod.mk.injEq, true_and, and_true] at h
  obtain ⟨hvalue, hlabels, htimestamp⟩ := h
  obtain ⟨value, labels, timestamp⟩ := e
  obtain rfl := Datum.display_injective hvalue
  obtain rfl := Labels.display_injective hlabels
  obtain rfl := Amount.display_injective htimestamp
  rfl

theorem readable_displayOption (e : Option Exemplar) : (displayOption e).Readable := by
  cases e with
  | none => exact Datum.null.readable_display
  | some e => exact e.readable_display

theorem displayOption_injective : Function.Injective displayOption := by
  intro e f h
  cases e with
  | none =>
    cases f with
    | none => rfl
    | some f => cases h
  | some e =>
    cases f with
    | none => cases h
    | some f => rw [display_injective h]

end Exemplar

namespace Buckets

theorem readable_display (b : Buckets) : b.display.Readable := by
  have hbounds := readable_tuple_map (fun bound => .word (Number.real bound).isWord_chars) b.bounds
  have hcounts := readable_tuple_map (fun count => .word count.isWord_chars) b.counts
  exact (ReadableFields.cons hbounds (.cons hcounts .nil)).record

/-- Buckets with the same bounds and counts are equal. -/
theorem eq_of_bounds_counts {b c : Buckets} (hbounds : b.bounds = c.bounds)
    (hcounts : b.counts = c.counts) : b = c := by
  apply Buckets.ext
  exact eq_of_map_eq (fun a b hbound hcount => Bucket.ext hbound (Amount.ext hcount)) hbounds hcounts

theorem display_injective : Function.Injective display := by
  intro b c h
  have hbound : ∀ x y : Binary64, Display.word x.chars = .word y.chars → x = y :=
    fun _ _ h => Binary64.chars_injective (Display.word.inj h)
  have hcount : ∀ m n : Number, Display.word m.chars = .word n.chars → m = n :=
    fun _ _ h => Number.chars_injective (Display.word.inj h)
  simp only [display, Display.record.injEq, List.cons.injEq, Prod.mk.injEq, Display.tuple.injEq,
    true_and, and_true, List.map_inj_right hbound, List.map_inj_right hcount] at h
  exact eq_of_bounds_counts h.1 h.2

end Buckets

namespace Quantile

theorem readable_display (q : Quantile) : q.display.Readable :=
  (ReadableFields.cons (.word q.share.isWord_chars) (.cons q.value.readable_display .nil)).record

theorem display_injective : Function.Injective display := by
  intro q r h
  simp only [display, Display.record.injEq, List.cons.injEq, Prod.mk.injEq,
    Display.word.injEq, true_and, and_true] at h
  obtain ⟨hshare, hvalue⟩ := h
  obtain ⟨share, value, _⟩ := q
  obtain rfl := Number.chars_injective hshare
  obtain rfl := Datum.display_injective hvalue
  rfl

end Quantile

namespace Quantiles

theorem readable_display (q : Quantiles) : q.display.Readable :=
  readable_tuple_map Quantile.readable_display q.toList

theorem display_injective : Function.Injective display := by
  intro q r h
  apply Quantiles.ext
  exact (List.map_inj_right fun _ _ hq => Quantile.display_injective hq).1 (Display.tuple.inj h)

end Quantiles

namespace State

theorem readable_display (s : State) : s.display.Readable :=
  (ReadableFields.cons .text (.cons (.word (Number.truth s.enabled).isWord_chars) .nil)).record

theorem display_injective : Function.Injective display := by
  intro s t h
  simp only [display, Display.record.injEq, List.cons.injEq, Prod.mk.injEq,
    Display.word.injEq, true_and, and_true] at h
  obtain ⟨hname, henabled⟩ := h
  obtain ⟨name, enabled⟩ := s
  obtain rfl := ofString_inj hname
  obtain rfl := Number.truth.inj (Number.chars_injective henabled)
  rfl

end State

namespace StateSet

theorem readable_display (s : StateSet) : s.display.Readable :=
  readable_tuple_map State.readable_display s.toList

theorem display_injective : Function.Injective display := by
  intro s t h
  apply StateSet.ext
  exact (List.map_inj_right fun _ _ hs => State.display_injective hs).1 (Display.tuple.inj h)

end StateSet

/-! ## Measurements -/

namespace Measurement

theorem exemplars_inj {es fs : List (Option Exemplar)}
    (h : Display.tuple (es.map Exemplar.displayOption) = .tuple (fs.map Exemplar.displayOption)) :
    es = fs :=
  (List.map_inj_right fun _ _ he => Exemplar.displayOption_injective he).1 (Display.tuple.inj h)

theorem countDatum_injective : Function.Injective countDatum := by
  intro m n h
  cases m with
  | none =>
    cases n with
    | none => rfl
    | some n => cases h
  | some m =>
    cases n with
    | none => cases h
    | some n => rw [Amount.ext (Datum.number.inj h)]

theorem readable_displayFields (m : Measurement) : ReadableFields m.displayFields := by
  cases m with
  | base => exact .nil
  | info => exact .nil
  | counter value exemplar =>
    exact .cons (.word value.number.isWord_chars)
      (.cons (Exemplar.readable_displayOption exemplar) .nil)
  | gauge value exemplar =>
    exact .cons value.readable_display (.cons (Exemplar.readable_displayOption exemplar) .nil)
  | unknown value exemplar =>
    exact .cons value.readable_display (.cons (Exemplar.readable_displayOption exemplar) .nil)
  | histogram buckets sum exemplars =>
    exact .cons buckets.readable_display (.cons sum.readable_display
      (.cons (readable_tuple_map Exemplar.readable_displayOption exemplars) .nil))
  | summary count sum quantiles exemplars =>
    exact .cons (countDatum count).readable_display
      (.cons sum.readable_display (.cons quantiles.readable_display
        (.cons (readable_tuple_map Exemplar.readable_displayOption exemplars) .nil)))
  | stateSet states => exact .cons states.readable_display .nil

/-- **Measurements of one class with the same fields are equal.** -/
theorem eq_of_displayFields {m n : Measurement} (hclass : m.pointClass = n.pointClass)
    (h : m.displayFields = n.displayFields) : m = n := by
  -- Fields alone do not say the class: gauges and unknown measurements have the same ones.
  cases m with
  | base =>
    cases n with
    | base => rfl
    | _ => cases hclass
  | info =>
    cases n with
    | info => rfl
    | _ => cases hclass
  | counter v e =>
    cases n with
    | counter w f =>
      simp only [displayFields, List.cons.injEq, Prod.mk.injEq, true_and, and_true] at h
      obtain rfl := CounterValue.ext (Amount.ext (Number.chars_injective (Display.word.inj h.1)))
      rw [Exemplar.displayOption_injective h.2]
    | _ => cases hclass
  | gauge v e =>
    cases n with
    | gauge w f =>
      simp only [displayFields, List.cons.injEq, Prod.mk.injEq, true_and, and_true] at h
      rw [Datum.display_injective h.1, Exemplar.displayOption_injective h.2]
    | _ => cases hclass
  | unknown v e =>
    cases n with
    | unknown w f =>
      simp only [displayFields, List.cons.injEq, Prod.mk.injEq, true_and, and_true] at h
      rw [Datum.display_injective h.1, Exemplar.displayOption_injective h.2]
    | _ => cases hclass
  | histogram b s es =>
    cases n with
    | histogram c t fs =>
      simp only [displayFields, List.cons.injEq, Prod.mk.injEq, true_and, and_true] at h
      obtain ⟨hbuckets, hsum, hexemplars⟩ := h
      rw [Buckets.display_injective hbuckets, Datum.display_injective hsum, exemplars_inj hexemplars]
    | _ => cases hclass
  | summary c s q es =>
    cases n with
    | summary d t r fs =>
      simp only [displayFields, List.cons.injEq, Prod.mk.injEq, true_and, and_true] at h
      obtain ⟨hcount, hsum, hquantiles, hexemplars⟩ := h
      rw [countDatum_injective (Datum.display_injective hcount), Datum.display_injective hsum,
        Quantiles.display_injective hquantiles, exemplars_inj hexemplars]
    | _ => cases hclass
  | stateSet s =>
    cases n with
    | stateSet t =>
      simp only [displayFields, List.cons.injEq, Prod.mk.injEq, true_and, and_true] at h
      rw [StateSet.display_injective h]
    | _ => cases hclass

end Measurement

/-! ## Points -/

theorem PointClass.title_injective : Function.Injective PointClass.title := by
  intro c d h
  cases c <;> cases d <;> first | rfl | exact absurd h (by decide)

theorem PointClass.isWord_title (c : PointClass) : IsWord c.title.toList := by
  cases c <;> decide

namespace DataPoint

/-- **Points have readable structures.** -/
theorem readable_display (p : DataPoint) : p.display.Readable :=
  (ReadableFields.cons p.labels.readable_display (.cons p.created.readable_display
    (.cons p.scrape.readable_display p.measurement.readable_displayFields))).record
      p.pointClass.isWord_title

/-- **Different points have different structures.** -/
theorem display_injective : Function.Injective display := by
  intro p q h
  simp only [display, Display.record.injEq, List.cons_append, List.nil_append, List.cons.injEq,
    Prod.mk.injEq, true_and] at h
  obtain ⟨htitle, hlabels, hcreated, hscrape, hfields⟩ := h
  -- The name of the record says which class the measurements are of.
  have hmeasurement := Measurement.eq_of_displayFields (PointClass.title_injective htitle) hfields
  exact DataPoint.ext (Labels.display_injective hlabels) (Amount.display_injective hcreated)
    (Amount.display_injective hscrape) hmeasurement

/-- **Different points are written differently.** -/
theorem written_injective : Function.Injective written := by
  intro p q h
  exact display_injective (p.readable_display.render_inj q.readable_display h)

/-- **Points that tie are equal**: the last thing that their order compares is the written form. -/
theorem eq_of_order_eq {p q : DataPoint} (h : order p q = .eq) : p = q := by
  simp only [order, compareLex, Ordering.then_eq_eq] at h
  obtain ⟨-, -, -, hwritten⟩ := h
  exact written_injective (Std.LawfulEqCmp.compare_eq_iff_eq.1 hwritten)

end DataPoint

end Telemetry
