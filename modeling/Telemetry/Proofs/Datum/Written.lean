import Telemetry.Datum
import Telemetry.Proofs.Display.Reading
import Telemetry.Proofs.Number.Written

/-!
# Written data

The written form of a datum shows what it is: its structure is readable, and different data have different
structures.

## Main results

* `Number.isWord_chars`: numbers are written as words
* `Datum.readable_display`, `Datum.display_injective`: data have readable structures, different data
  different ones
-/

namespace Telemetry

namespace Number

theorem isPlain_of_isDigit {c : Char} (h : c.isDigit = true) : Display.IsPlain c := by
  refine .inl ?_
  rw [Char.isAlphanum, h, Bool.or_true]

theorem isPlain_of_isMark {c : Char} (h : Decimal.IsMark c) : Display.IsPlain c := by
  rcases h with h | h
  · exact isPlain_of_isDigit h
  · simp only [List.mem_cons, List.not_mem_nil, or_false] at h
    rcases h with rfl | rfl | rfl | rfl <;> decide

/-- **Numbers are written as words.** -/
theorem isWord_chars (n : Number) : Display.IsWord n.chars := by
  refine ⟨n.chars_ne_nil, fun c hc => ?_⟩
  cases n with
  | whole n =>
    rcases mem_wholeChars hc with hc | rfl
    · exact isPlain_of_isDigit hc
    · decide
  | real x =>
    rcases Binary64.isMark_or_mem_of_mem_chars hc with hc | hc
    · exact isPlain_of_isMark hc
    · simp only [List.mem_cons, List.not_mem_nil, or_false] at hc
      rcases hc with rfl | rfl | rfl | rfl <;> decide
  | truth b =>
    have htruth (b : Bool) : Display.IsWord (truth b).chars := by
      cases b <;> decide
    exact (htruth b).2 c hc

end Number

namespace Datum

-- Data are nested in lists and in entries, so three statements are proved together.
mutual

/-- **Data have readable structures.** -/
theorem readable_display : ∀ d : Datum, d.display.Readable
  | .null => .word (by decide)
  | .number n => .word n.isWord_chars
  | .text _ => .text
  | .bytes _ => .octets
  | .list items => .list (readable_displayItems items)
  | .dict entries =>
    .dict (fun entry h => (readable_displayEntries entries entry h).1)
      fun entry h => (readable_displayEntries entries entry h).2

theorem readable_displayItems : ∀ items : List Datum, ∀ d ∈ displayItems items, d.Readable
  | [], _, h => absurd h List.not_mem_nil
  | item :: rest, d, h => by
    rcases List.mem_cons.1 h with rfl | h
    · exact readable_display item
    · exact readable_displayItems rest d h

theorem readable_displayEntries : ∀ entries : List (Datum × Datum),
    ∀ entry ∈ displayEntries entries, entry.1.Readable ∧ entry.2.Readable
  | [], _, h => absurd h List.not_mem_nil
  | (key, value) :: rest, entry, h => by
    rcases List.mem_cons.1 h with rfl | h
    · exact ⟨readable_display key, readable_display value⟩
    · exact readable_displayEntries rest entry h

end

mutual

/-- **Different data have different structures.** -/
theorem display_inj : ∀ {a b : Datum}, a.display = b.display → a = b
  | .null, b, h => by
    cases b with
    | null => rfl
    | number n => exact absurd (Display.word.inj h).symm n.chars_ne_none
    | _ => cases h
  | .number m, b, h => by
    cases b with
    | null => exact absurd (Display.word.inj h) m.chars_ne_none
    | number n => rw [Number.chars_injective (Display.word.inj h)]
    | _ => cases h
  | .text s, b, h => by
    cases b with
    | text t => rw [String.toList_inj.1 (Display.text.inj h)]
    | _ => cases h
  | .bytes octets, b, h => by
    cases b with
    | bytes others => rw [Display.octets.inj h]
    | _ => cases h
  | .list items, b, h => by
    cases b with
    | list others => rw [displayItems_inj (Display.list.inj h)]
    | _ => cases h
  | .dict entries, b, h => by
    cases b with
    | dict others => rw [displayEntries_inj (Display.dict.inj h)]
    | _ => cases h

theorem displayItems_inj : ∀ {as bs : List Datum}, displayItems as = displayItems bs → as = bs
  | [], bs, h => by
    cases bs with
    | nil => rfl
    | cons b bs => cases h
  | a :: as, bs, h => by
    cases bs with
    | nil => cases h
    | cons b bs =>
      obtain ⟨hfirst, hrest⟩ := List.cons.inj h
      rw [display_inj hfirst, displayItems_inj hrest]

theorem displayEntries_inj : ∀ {as bs : List (Datum × Datum)},
    displayEntries as = displayEntries bs → as = bs
  | [], bs, h => by
    cases bs with
    | nil => rfl
    | cons b bs => cases h
  | (key, value) :: as, bs, h => by
    cases bs with
    | nil => cases h
    | cons b bs =>
      obtain ⟨hfirst, hrest⟩ := List.cons.inj h
      obtain ⟨hkey, hvalue⟩ := Prod.mk.inj hfirst
      rw [display_inj hkey, display_inj hvalue, displayEntries_inj hrest]

end

theorem display_injective : Function.Injective display :=
  fun _ _ => display_inj

end Datum

end Telemetry
