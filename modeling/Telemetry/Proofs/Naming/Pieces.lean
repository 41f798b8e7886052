import Mathlib.Data.List.DropRight
import Mathlib.Data.List.Induction
import Telemetry.MeasureUnit
import Telemetry.Proofs.Naming.Lead

/-!
# Pieces of names

Separators divide a text into pieces, the longest runs of other characters. A text becomes a unit name in laps that go
back and forth: separators are dropped at both ends and reserved words at the last end, as long as there are some. What
is left does not depend on the order of the steps: it reaches from the first piece to the last piece that is no
reserved word.

## Main definitions

* `IsPiece`: a piece of a text, with what stands in front of it and behind it
* `IsFirstPiece`, `IsLastFree`: the first piece, and the last one that is no reserved word
* `UnitName.kept`: a text without the separators and reserved words at its end

## Main results

* `Naming.induction_on_pieces`: texts grow by separators and by pieces
* `Naming.isPiece_concat_iff`, `Naming.isPiece_append_iff`: the pieces of a text that has grown
* `UnitName.kept_cases`: what is left of a text reaches to the last piece that is no reserved word
* `UnitName.dropWords_eq_kept`: laps over the reserved words in any order leave the same
* `UnitName.charsProblem?_eq_none_of_isPiece`: a text that ends with such a piece is a unit name
* `UnitName.sanitize_unit_exact`: which unit name a text becomes
-/

namespace Telemetry

/-! ## Trimmed texts -/

/-- Where no character can be trimmed, none is. -/
theorem Text.trim_of_forall {p : Char → Bool} {chars : List Char} (h : ∀ c ∈ chars, p c = false) :
    Text.trim p chars = chars := by
  have hdrop {cs : List Char} (hcs : ∀ c ∈ cs, p c = false) : cs.dropWhile p = cs := by
    cases cs with
    | nil => rfl
    | cons c tail =>
      rw [List.dropWhile_cons, hcs c List.mem_cons_self]
      rfl
  rw [Text.trim, Text.dropEndWhile, hdrop h, hdrop (by simpa using h), List.reverse_reverse]

/-- Trimmed texts have nothing to drop at either end. -/
theorem Text.trim_eq_self_iff {p : Char → Bool} {chars : List Char} :
    Text.trim p chars = chars ↔ chars.dropWhile p = chars ∧ Text.dropEndWhile p chars = chars := by
  constructor
  · intro h
    have hfirst : chars.dropWhile p = chars := by
      refine (List.dropWhile_sublist p).eq_of_length_le ?_
      have hlength := (Text.dropEndWhile_sublist p (chars.dropWhile p)).length_le
      rwa [← Text.trim, h] at hlength
    rw [Text.trim, hfirst] at h
    exact ⟨hfirst, h⟩
  · rintro ⟨hfirst, hlast⟩
    rw [Text.trim, hfirst, hlast]

namespace Naming

/-! ## Pieces -/

/-- **Texts behind which a piece can begin**: the empty text, and texts that end with a separator. -/
def IsOpen (front : List Char) : Prop :=
  ∀ c ∈ front.getLast?, isSeparator c = true

/-- **Characters that are no separators**, at least one. -/
def IsPlain (piece : List Char) : Prop :=
  piece ≠ [] ∧ ∀ c ∈ piece, isSeparator c = false

/-- **A piece of a text**, with what stands in front of it and behind it. No more characters that are no separators
stand right beside it. -/
structure IsPiece (chars front piece rest : List Char) : Prop where
  eq_append : chars = front ++ piece ++ rest
  isPlain : IsPlain piece
  isOpen : IsOpen front
  closed : ∀ c ∈ rest.head?, isSeparator c = true

/-- **The first piece of a text.** -/
structure IsFirstPiece (chars front piece rest : List Char) : Prop extends IsPiece chars front piece rest where
  first : ∀ front' piece' rest', IsPiece chars front' piece' rest' → front.length ≤ front'.length

/-- **The last piece of a text that is no reserved word.** -/
structure IsLastFree (chars front piece rest : List Char) : Prop extends IsPiece chars front piece rest where
  free : piece ∉ reservedWords
  last : ∀ front' piece' rest', IsPiece chars front' piece' rest' → piece' ∉ reservedWords →
    front'.length ≤ front.length

variable {chars front piece rest word : List Char} {c : Char}

theorem isOpen_nil : IsOpen [] := by
  simp [IsOpen]

theorem isOpen_concat : IsOpen (front ++ [c]) ↔ isSeparator c = true := by
  simp [IsOpen]

/-- No piece begins behind a text that ends with a piece. -/
theorem not_isOpen_append (h : IsPlain piece) (front : List Char) : ¬IsOpen (front ++ piece) := by
  obtain ⟨hne, hplain⟩ := h
  cases piece using List.reverseRecOn with
  | nil => exact absurd rfl hne
  | append_singleton init c =>
    rw [← List.append_assoc, isOpen_concat, hplain c (by simp)]
    exact Bool.false_ne_true

/-- **A text has one last piece** that reaches to its end. -/
theorem eq_of_append_eq {front' piece' : List Char} (hfront : IsOpen front) (hpiece : IsPlain piece)
    (hfront' : IsOpen front') (hpiece' : IsPlain piece') (h : front ++ piece = front' ++ piece') :
    front = front' ∧ piece = piece' := by
  -- What one front has more than the other would end with a separator, and be part of a piece.
  have hshort {more front piece : List Char} (hopen : IsOpen (front ++ more)) (hpiece : IsPlain piece)
      (hmore : ∀ c ∈ more, c ∈ piece) : more = [] := by
    by_contra hne
    exact not_isOpen_append ⟨hne, fun c hc => hpiece.2 c (hmore c hc)⟩ front hopen
  rcases List.append_eq_append_iff.1 h with ⟨more, rfl, rfl⟩ | ⟨more, rfl, rfl⟩
  · obtain rfl := hshort hfront' hpiece fun c hc => List.mem_append_left _ hc
    simp
  · obtain rfl := hshort hfront hpiece' fun c hc => List.mem_append_left _ hc
    simp

/-- **Texts grow by separators and by pieces.** -/
theorem induction_on_pieces {motive : List Char → Prop} (nil : motive [])
    (separator : ∀ chars c, isSeparator c = true → motive chars → motive (chars ++ [c]))
    (piece : ∀ front piece, IsOpen front → IsPlain piece → motive front → motive (front ++ piece))
    (chars : List Char) : motive chars := by
  -- The last piece grows character by character, until a separator follows.
  have hlast : ∃ front tail, chars = front ++ tail ∧ IsOpen front ∧ (∀ c ∈ tail, isSeparator c = false) ∧
      motive front ∧ motive chars := by
    induction chars using List.reverseRecOn with
    | nil => exact ⟨[], [], rfl, isOpen_nil, by simp, nil, nil⟩
    | append_singleton chars c ih =>
      obtain ⟨front, tail, rfl, hopen, htail, hfront, hchars⟩ := ih
      by_cases hc : isSeparator c = true
      · have hmotive := separator (front ++ tail) c hc hchars
        exact ⟨front ++ tail ++ [c], [], by simp, isOpen_concat.2 hc, by simp, hmotive, hmotive⟩
      · have hplain : ∀ d ∈ tail ++ [c], isSeparator d = false := by
          simpa [or_imp, forall_and] using ⟨htail, by simpa using hc⟩
        have hmotive := piece front (tail ++ [c]) hopen ⟨by simp, hplain⟩ hfront
        exact ⟨front, tail ++ [c], by simp, hopen, hplain, hfront, by simpa using hmotive⟩
  obtain ⟨-, -, -, -, -, -, hmotive⟩ := hlast
  exact hmotive

theorem not_isPiece_nil : ¬IsPiece [] front piece rest := by
  intro h
  have hpiece := h.eq_append
  simp only [List.nil_eq, List.append_eq_nil_iff] at hpiece
  exact h.isPlain.1 hpiece.1.2

/-- **A separator behind a text** changes none of its pieces. -/
theorem isPiece_concat_iff (hc : isSeparator c = true) :
    IsPiece (chars ++ [c]) front piece rest ↔ ∃ more, rest = more ++ [c] ∧ IsPiece chars front piece more := by
  constructor
  · intro h
    have heq := h.eq_append
    cases rest using List.reverseRecOn with
    | nil =>
      rw [List.append_nil] at heq
      exact absurd (heq ▸ isOpen_concat.2 hc) (not_isOpen_append h.isPlain front)
    | append_singleton more d =>
      rw [← List.append_assoc] at heq
      obtain ⟨hinit, hd⟩ := List.append_inj' heq rfl
      obtain rfl : c = d := by simpa using hd
      refine ⟨more, rfl, hinit, h.isPlain, h.isOpen, fun d hd => h.closed d ?_⟩
      rw [List.head?_append, hd]
      rfl
  · rintro ⟨more, rfl, h⟩
    refine ⟨by rw [h.eq_append, List.append_assoc], h.isPlain, h.isOpen, fun d hd => ?_⟩
    cases more with
    | nil =>
      obtain rfl : c = d := by simpa using hd
      exact hc
    | cons e more => exact h.closed d hd

/-- **A piece behind a text** is one more piece, and the others are those of the text. -/
theorem isPiece_append_iff {front' piece' : List Char} (hopen : IsOpen front) (hpiece : IsPlain piece) :
    IsPiece (front ++ piece) front' piece' rest ↔ (front' = front ∧ piece' = piece ∧ rest = []) ∨
      ∃ more, rest = more ++ piece ∧ IsPiece front front' piece' more := by
  constructor
  · intro h
    by_cases hrest : rest = []
    · subst hrest
      have heq := h.eq_append
      rw [List.append_nil] at heq
      obtain ⟨rfl, rfl⟩ := eq_of_append_eq hopen hpiece h.isOpen h.isPlain heq
      exact .inl ⟨rfl, rfl, rfl⟩
    · obtain ⟨c, tail, rfl⟩ := List.exists_cons_of_ne_nil hrest
      have hc := h.closed c rfl
      have hnot : c ∉ piece := fun hmem => by rw [hpiece.2 c hmem] at hc; cases hc
      rcases List.append_eq_append_iff.1 h.eq_append with ⟨more, heq, hmore⟩ | ⟨more, heq, hmore⟩
      · exact absurd (hmore ▸ List.mem_append_right _ List.mem_cons_self) hnot
      · refine .inr ⟨more, hmore, heq, h.isPlain, h.isOpen, fun d hd => ?_⟩
        cases more with
        | nil => cases hd
        | cons e more =>
          obtain rfl : e = d := by simpa using hd
          obtain ⟨rfl, -⟩ := List.cons.inj hmore
          exact hc
  · rintro (⟨rfl, rfl, rfl⟩ | ⟨more, rfl, h⟩)
    · exact ⟨by simp, hpiece, hopen, by simp⟩
    · refine ⟨by rw [h.eq_append, List.append_assoc], h.isPlain, h.isOpen, fun d hd => ?_⟩
      cases more with
      | nil =>
        have heq := h.eq_append
        rw [List.append_nil] at heq
        exact absurd (heq ▸ hopen) (not_isOpen_append h.isPlain front')
      | cons e more => exact h.closed d hd

/-- **The first piece of a text** stands behind the separators at its beginning. -/
theorem IsPiece.exists_isFirstPiece (h : IsPiece chars front piece rest) :
    ∃ first more, IsFirstPiece chars (chars.takeWhile isSeparator) first more := by
  have hbefore {front' piece' rest' : List Char} (h' : IsPiece chars front' piece' rest') :
      (chars.takeWhile isSeparator).length ≤ front'.length := by
    obtain ⟨c, tail, rfl⟩ := List.exists_cons_of_ne_nil h'.isPlain.1
    have hc : isSeparator c = false := h'.isPlain.2 c List.mem_cons_self
    rw [h'.eq_append, List.append_assoc, List.takeWhile_append, List.cons_append, List.takeWhile_cons, hc]
    split
    · simp
    · exact (List.takeWhile_prefix _).length_le
  have hplain : chars.dropWhile isSeparator ≠ [] := by
    intro hnil
    obtain ⟨c, tail, rfl⟩ := List.exists_cons_of_ne_nil h.isPlain.1
    have hc := List.dropWhile_eq_nil_iff.1 hnil c (by rw [h.eq_append]; simp)
    rw [h.isPlain.2 c List.mem_cons_self] at hc
    cases hc
  refine ⟨(chars.dropWhile isSeparator).takeWhile (!isSeparator ·),
    (chars.dropWhile isSeparator).dropWhile (!isSeparator ·), ⟨?_, ⟨?_, ?_⟩, ?_, ?_⟩, fun _ _ _ => hbefore⟩
  · rw [List.append_assoc, List.takeWhile_append_dropWhile, List.takeWhile_append_dropWhile]
  · rw [ne_eq, List.takeWhile_eq_nil_iff]
    intro hhead
    exact hhead (List.length_pos_iff.2 hplain) (by simpa using List.dropWhile_get_zero_not isSeparator chars _)
  · intro c hc
    simpa using List.mem_takeWhile_imp hc
  · intro c hc
    exact List.mem_takeWhile_imp (List.mem_of_getLast? hc)
  · intro c hc
    have hhead := List.head?_dropWhile_not (!isSeparator ·) (chars.dropWhile isSeparator)
    rw [hc] at hhead
    simpa using hhead

end Naming

namespace UnitName

open Naming

variable {chars front piece rest word : List Char}

/-! ## What is left at the end -/

theorem isPlain_of_mem_reservedWords (h : word ∈ reservedWords) : IsPlain word := by
  have hwords : ∀ word ∈ reservedWords, word ≠ [] ∧ word.all (!isSeparator ·) = true := by decide
  obtain ⟨hne, hplain⟩ := hwords word h
  exact ⟨hne, fun c hc => by simpa using List.all_eq_true.1 hplain c hc⟩

/-- Whether a text ends with a word behind which no more of a piece stands in front. -/
def endsWithWord (chars word : List Char) : Bool :=
  word.isSuffixOf chars && (chars.take (chars.length - word.length)).getLast?.all isSeparator

theorem endsWithWord_iff : endsWithWord chars word = true ↔ ∃ front, chars = front ++ word ∧ IsOpen front := by
  have hall (front : List Char) : front.getLast?.all isSeparator = true ↔ IsOpen front := by
    unfold Naming.IsOpen
    cases front.getLast? <;> simp
  rw [endsWithWord, Bool.and_eq_true, List.isSuffixOf_iff_suffix, hall]
  constructor
  · rintro ⟨⟨front, rfl⟩, hopen⟩
    exact ⟨front, rfl, by simpa using hopen⟩
  · rintro ⟨front, rfl, hopen⟩
    exact ⟨List.suffix_append front word, by simpa using hopen⟩

/-- **A text without the separators and reserved words at its end.** -/
def kept (chars : List Char) : List Char :=
  match _found : reservedWords.find? (endsWithWord (Text.dropEndWhile isSeparator chars)) with
  | none => Text.dropEndWhile isSeparator chars
  | some word =>
    kept ((Text.dropEndWhile isSeparator chars).take ((Text.dropEndWhile isSeparator chars).length - word.length))
termination_by chars.length
decreasing_by
  have hword := List.length_pos_iff.2 (isPlain_of_mem_reservedWords (List.mem_of_find?_eq_some _found)).1
  obtain ⟨front, hbody, -⟩ := endsWithWord_iff.1 (List.find?_some _found)
  have hlength := (Text.dropEndWhile_sublist isSeparator chars).length_le
  have hsum := congrArg List.length hbody
  rw [List.length_append] at hsum
  rw [List.length_take]
  omega

/-- What a text ends with is looked for in front of the separators at its end. -/
theorem kept_eq (chars : List Char) :
    kept chars = match reservedWords.find? (endsWithWord (Text.dropEndWhile isSeparator chars)) with
      | none => Text.dropEndWhile isSeparator chars
      | some word =>
        kept ((Text.dropEndWhile isSeparator chars).take
          ((Text.dropEndWhile isSeparator chars).length - word.length)) := by
  rw [kept]
  split
  · next hnone => rw [hnone]
  · next word hsome => rw [hsome]

@[simp] theorem kept_nil : kept [] = [] := by
  rw [kept_eq]
  rfl

/-- **A separator behind a text is dropped.** -/
theorem kept_concat {c : Char} (hc : isSeparator c = true) (chars : List Char) :
    kept (chars ++ [c]) = kept chars := by
  have hbody : Text.dropEndWhile isSeparator (chars ++ [c]) = Text.dropEndWhile isSeparator chars := by
    simp [Text.dropEndWhile, hc]
  rw [kept_eq, hbody, ← kept_eq]

/-- A text that ends with a piece has no separators to drop. -/
theorem dropEndWhile_append (hpiece : IsPlain piece) (front : List Char) :
    Text.dropEndWhile isSeparator (front ++ piece) = front ++ piece := by
  obtain ⟨hne, hplain⟩ := hpiece
  cases piece using List.reverseRecOn with
  | nil => exact absurd rfl hne
  | append_singleton init c => simp [Text.dropEndWhile, hplain c (by simp)]

/-- **A reserved word behind a text is dropped.** -/
theorem kept_append_word (hopen : IsOpen front) (h : word ∈ reservedWords) : kept (front ++ word) = kept front := by
  have hplain := isPlain_of_mem_reservedWords h
  have hfind : reservedWords.find? (endsWithWord (front ++ word)) = some word := by
    cases hfound : reservedWords.find? (endsWithWord (front ++ word)) with
    | none =>
      have hnone := List.find?_eq_none.1 hfound word h
      exact absurd (endsWithWord_iff.2 ⟨front, rfl, hopen⟩) hnone
    | some other =>
      obtain ⟨front', heq, hopen'⟩ := endsWithWord_iff.1 (List.find?_some hfound)
      have hother := isPlain_of_mem_reservedWords (List.mem_of_find?_eq_some hfound)
      rw [(eq_of_append_eq hopen hplain hopen' hother heq).2]
  rw [kept_eq, dropEndWhile_append hplain, hfind]
  dsimp only
  rw [List.length_append, Nat.add_sub_cancel, List.take_left]

/-- **A text that ends with a piece that is no reserved word is left alone.** -/
theorem kept_append_free (hopen : IsOpen front) (hpiece : IsPlain piece) (hfree : piece ∉ reservedWords) :
    kept (front ++ piece) = front ++ piece := by
  have hfind : reservedWords.find? (endsWithWord (front ++ piece)) = none := by
    rw [List.find?_eq_none]
    intro word hword hends
    obtain ⟨front', heq, hopen'⟩ := endsWithWord_iff.1 hends
    have hsame := eq_of_append_eq hopen hpiece hopen' (isPlain_of_mem_reservedWords hword) heq
    rw [← hsame.2] at hword
    exact hfree hword
  rw [kept_eq, dropEndWhile_append hpiece, hfind]

/-- **What is left of a text** reaches to the last piece that is no reserved word, if there is one. -/
theorem kept_cases (chars : List Char) :
    (kept chars = [] ∧ ∀ front piece rest, IsPiece chars front piece rest → piece ∈ reservedWords) ∨
      ∃ front piece rest, kept chars = front ++ piece ∧ IsLastFree chars front piece rest := by
  induction chars using induction_on_pieces with
  | nil => exact .inl ⟨kept_nil, fun _ _ _ h => absurd h not_isPiece_nil⟩
  | separator chars c hc ih =>
    rw [kept_concat hc]
    rcases ih with ⟨hnil, hall⟩ | ⟨front, piece, rest, hkept, hlast⟩
    · refine .inl ⟨hnil, fun front piece rest h => ?_⟩
      obtain ⟨more, -, hmore⟩ := (isPiece_concat_iff hc).1 h
      exact hall front piece more hmore
    · refine .inr ⟨front, piece, rest ++ [c], hkept, ?_, hlast.free, fun front' piece' rest' h => ?_⟩
      · exact (isPiece_concat_iff hc).2 ⟨rest, rfl, hlast.toIsPiece⟩
      · obtain ⟨more, -, hmore⟩ := (isPiece_concat_iff hc).1 h
        exact hlast.last front' piece' more hmore
  | piece front piece hopen hpiece ih =>
    by_cases hword : piece ∈ reservedWords
    · rw [kept_append_word hopen hword]
      rcases ih with ⟨hnil, hall⟩ | ⟨lead, last, rest, hkept, hlast⟩
      · refine .inl ⟨hnil, fun front' piece' rest' h => ?_⟩
        rcases (isPiece_append_iff hopen hpiece).1 h with ⟨-, rfl, -⟩ | ⟨more, -, hmore⟩
        · exact hword
        · exact hall front' piece' more hmore
      · refine .inr ⟨lead, last, rest ++ piece, hkept, ?_, hlast.free, fun front' piece' rest' h hfree => ?_⟩
        · exact (isPiece_append_iff hopen hpiece).2 (.inr ⟨rest, rfl, hlast.toIsPiece⟩)
        · rcases (isPiece_append_iff hopen hpiece).1 h with ⟨-, rfl, -⟩ | ⟨more, -, hmore⟩
          · exact absurd hword hfree
          · exact hlast.last front' piece' more hmore hfree
    · refine .inr ⟨front, piece, [], kept_append_free hopen hpiece hword, ?_, hword, fun front' piece' rest' h _ => ?_⟩
      · exact (isPiece_append_iff hopen hpiece).2 (.inl ⟨rfl, rfl, rfl⟩)
      · rcases (isPiece_append_iff hopen hpiece).1 h with ⟨rfl, -, -⟩ | ⟨more, -, hmore⟩
        · exact Nat.le_refl _
        · rw [hmore.eq_append, List.append_assoc, List.length_append]
          exact Nat.le_add_right _ _

/-! ## What is left at both ends -/

/-- Nothing of a piece is dropped with the separators in front of it. -/
theorem dropWhile_append (hpiece : IsPlain piece) (front : List Char) :
    (front ++ piece).dropWhile isSeparator = front.dropWhile isSeparator ++ piece := by
  obtain ⟨c, tail, rfl⟩ := List.exists_cons_of_ne_nil hpiece.1
  have hc := hpiece.2 c List.mem_cons_self
  rw [List.dropWhile_append]
  split
  · next hempty => simp [List.isEmpty_iff.1 hempty, hc]
  · rfl

/-- A text up to the end of a piece of it, without the separators at its beginning, is a part of the text. -/
theorem eq_takeWhile_append (h : IsPiece chars front piece rest) :
    chars = chars.takeWhile isSeparator ++ (front ++ piece).dropWhile isSeparator ++ rest := by
  have hdrop : chars.dropWhile isSeparator = (front ++ piece).dropWhile isSeparator ++ rest := by
    rw [h.eq_append, List.dropWhile_append, dropWhile_append h.isPlain, if_neg (by simp [h.isPlain.1])]
  rw [List.append_assoc, ← hdrop, List.takeWhile_append_dropWhile]

/-- Without separators in front, a piece can still begin. -/
theorem isOpen_dropWhile (hopen : IsOpen front) : IsOpen (front.dropWhile isSeparator) := by
  intro c hc
  obtain ⟨start, hstart⟩ := List.dropWhile_suffix (l := front) isSeparator
  apply hopen
  rw [← hstart, List.getLast?_append, hc]
  rfl

/-- **A text of supported characters that ends with a piece that is no reserved word is a unit name.** -/
theorem charsProblem?_eq_none_of_isPiece (h : IsPiece chars front piece []) (hfree : piece ∉ reservedWords)
    (hsupported : chars.all isSupported = true) : charsProblem? chars = none := by
  obtain rfl : chars = front ++ piece := by simpa using h.eq_append
  have hlast {front' word : List Char} (hopen : IsOpen front') (hword : word ∈ reservedWords) :
      front ++ piece ≠ front' ++ word := by
    intro heq
    have hsame := eq_of_append_eq h.isOpen h.isPlain hopen (isPlain_of_mem_reservedWords hword) heq
    rw [← hsame.2] at hword
    exact hfree hword
  refine charsProblem?_eq_none_iff.2 ⟨List.append_ne_nil_of_right_ne_nil front h.isPlain.1, fun hword => ?_, ?_,
    hsupported⟩
  · exact hlast isOpen_nil hword rfl
  · rw [reservedSuffix?_eq_none_iff]
    rintro suffix hsuffix ⟨start, hstart⟩
    obtain ⟨c, hc, word, hword, rfl⟩ := mem_reservedSuffixes_iff.1 hsuffix
    have hseparators : ['_', '.'].all isSeparator = true := by decide
    have hopen : IsOpen (start ++ [c]) := isOpen_concat.2 (List.all_eq_true.1 hseparators c hc)
    exact hlast hopen hword (by simp [← hstart])

/-! ## Laps -/

section Laps

variable {words : List (List Char)} {lap : Lap} {c : Char}

theorem isOpen_cons (hc : isSeparator c = true) (h : IsOpen front) : IsOpen (c :: front) := by
  cases front with
  | nil => simpa [Naming.IsOpen] using hc
  | cons d front => simpa [Naming.IsOpen] using h

/-- A separator in front of a text is dropped too. -/
theorem dropWhile_kept_cons (hc : isSeparator c = true) (chars : List Char) :
    (kept (c :: chars)).dropWhile isSeparator = (kept chars).dropWhile isSeparator := by
  induction chars using induction_on_pieces with
  | nil => rw [← List.nil_append [c], kept_concat hc]
  | separator chars d hd ih => rw [← List.cons_append, kept_concat hd, kept_concat hd, ih]
  | piece front piece hopen hpiece ih =>
    rw [← List.cons_append]
    by_cases hword : piece ∈ reservedWords
    · rw [kept_append_word (isOpen_cons hc hopen) hword, kept_append_word hopen hword, ih]
    · rw [kept_append_free (isOpen_cons hc hopen) hpiece hword, kept_append_free hopen hpiece hword, List.cons_append,
        List.dropWhile_cons, if_pos hc]

/-- **Separators at both ends change nothing of what is left.** -/
theorem dropWhile_kept_trim (chars : List Char) :
    (kept (Text.trim isSeparator chars)).dropWhile isSeparator = (kept chars).dropWhile isSeparator := by
  have hend (chars : List Char) : kept (Text.dropEndWhile isSeparator chars) = kept chars := by
    induction chars using induction_on_pieces with
    | nil => rfl
    | separator chars d hd ih =>
      have hdrop : Text.dropEndWhile isSeparator (chars ++ [d]) = Text.dropEndWhile isSeparator chars := by
        simp [Text.dropEndWhile, hd]
      rw [hdrop, kept_concat hd, ih]
    | piece front piece _ hpiece _ => rw [dropEndWhile_append hpiece]
  rw [Text.trim, hend]
  induction chars with
  | nil => rfl
  | cons c chars ih =>
    rw [List.dropWhile_cons]
    split
    · next hc => rw [ih, dropWhile_kept_cons hc]
    · rfl

/-- What is dropped on a lap is not part of what is left. -/
theorem kept_drop (hword : word ∈ reservedWords) (hc : isSeparator c = true) (lap : Lap) :
    kept (lap.drop (c :: word)).name = kept lap.name := by
  rcases Lap.drop_cases (c :: word) lap with ⟨-, hdrop⟩ | ⟨front, hname, hdrop⟩
  · rw [hdrop]
  · rw [hdrop, hname, List.append_cons, kept_append_word (isOpen_concat.2 hc) hword, kept_concat hc]

/-- **A lap changes nothing of what is left.** -/
theorem kept_dropEach (hmem : ∀ word ∈ words, word ∈ reservedWords) (lap : Lap) :
    kept (dropEach words lap).name = kept lap.name := by
  induction words generalizing lap with
  | nil => rfl
  | cons word words ih =>
    rw [List.forall_mem_cons] at hmem
    rw [dropEach]
    split
    · next hname => rw [hname, ← List.nil_append word, kept_append_word isOpen_nil hmem.1]
    · rw [ih hmem.2, kept_drop hmem.1 rfl, kept_drop hmem.1 rfl]

/-- **A lap that changes nothing** has looked for all words, or nothing is left. -/
theorem of_dropEach_unchanged (h : (dropEach words lap).changed = false) :
    (dropEach words lap).name = [] ∨ dropEach words lap = lap ∧
      ∀ word ∈ words, lap.name ≠ word ∧ ¬ '_' :: word <:+ lap.name ∧ ¬ '.' :: word <:+ lap.name := by
  induction words generalizing lap with
  | nil => exact .inr ⟨rfl, nofun⟩
  | cons word words ih =>
    rw [dropEach] at h ⊢
    split at h
    · next hname => exact .inl (by rw [if_pos hname])
    · next hne =>
      rw [if_neg hne]
      obtain hnil | ⟨hnext, hrest⟩ := ih h
      · exact .inl hnil
      right
      rw [hnext] at h ⊢
      rcases Lap.drop_cases ('.' :: word) (lap.drop ('_' :: word)) with ⟨hdot, hsame⟩ | ⟨front, -, hdrop⟩
      · rw [hsame] at h hrest ⊢
        rcases Lap.drop_cases ('_' :: word) lap with ⟨hunderscore, hsame'⟩ | ⟨front, -, hdrop⟩
        · rw [hsame'] at hdot hrest ⊢
          exact ⟨rfl, List.forall_mem_cons.2 ⟨⟨hne, hunderscore, hdot⟩, hrest⟩⟩
        · rw [hdrop] at h
          cases h
      · rw [hdrop] at h
        cases h

/-- A trimmed text that ends with no reserved word is left alone. -/
theorem kept_eq_self (htrim : Text.trim isSeparator chars = chars)
    (hfree : ∀ word ∈ reservedWords, chars ≠ word ∧ ¬ '_' :: word <:+ chars ∧ ¬ '.' :: word <:+ chars) :
    kept chars = chars := by
  obtain ⟨-, hend⟩ := Text.trim_eq_self_iff.1 htrim
  induction chars using induction_on_pieces with
  | nil => exact kept_nil
  | separator chars c hc _ =>
    have hshort := (Text.dropEndWhile_sublist isSeparator chars).length_le
    have hdrop : Text.dropEndWhile isSeparator (chars ++ [c]) = Text.dropEndWhile isSeparator chars := by
      simp [Text.dropEndWhile, hc]
    rw [← hdrop, hend, List.length_append, List.length_singleton] at hshort
    omega
  | piece front piece hopen hpiece _ =>
    refine kept_append_free hopen hpiece fun hword => ?_
    obtain ⟨hne, hunderscore, hdot⟩ := hfree piece hword
    cases front using List.reverseRecOn with
    | nil => exact hne rfl
    | append_singleton front c =>
      have hc : c = '_' ∨ c = '.' := by simpa [isSeparator] using isOpen_concat.1 hopen
      rcases hc with rfl | rfl
      · exact hunderscore ⟨front, by simp⟩
      · exact hdot ⟨front, by simp⟩

/-- **Laps drop the separators at both ends and the reserved words at the end**, whatever the order of the table. -/
theorem dropWords_eq_kept {table : List (List Char)} (htable : ∀ word, word ∈ table ↔ word ∈ reservedWords)
    (name : List Char) : dropWords table name = (kept name).dropWhile isSeparator := by
  have hlap (name : List Char) :
      (kept (UnitName.lap table name).name).dropWhile isSeparator = (kept name).dropWhile isSeparator := by
    rw [UnitName.lap, kept_dropEach fun word => (htable word).1, dropWhile_kept_trim]
  fun_induction dropWords table name with
  | case1 name hchanged ih => rw [ih, hlap]
  | case2 name hchanged =>
    have hunchanged : (UnitName.lap table name).changed = false := Bool.eq_false_iff.2 hchanged
    rw [← hlap name]
    rcases of_dropEach_unchanged hunchanged with hnil | ⟨hsame, hfree⟩
    · have hname : (UnitName.lap table name).name = [] := hnil
      rw [hname, kept_nil, List.dropWhile_nil]
    · have hname : UnitName.lap table name = ⟨Text.trim isSeparator name, Text.trim isSeparator name != name⟩ := hsame
      rw [hname] at hunchanged ⊢
      have htrim : Text.trim isSeparator name = name := by simpa using hunchanged
      rw [htrim] at hfree ⊢
      have hkept : kept name = name := kept_eq_self htrim fun word hword => hfree word ((htable word).2 hword)
      rw [hkept, (Text.trim_eq_self_iff.1 htrim).1]

end Laps

/-! ## Unit names from texts -/

variable {text name : String}

/-- **The characters of a text as a unit name may hold them**, without blanks at both ends. -/
def supported (text : String) : List Char :=
  (Text.trim Text.isBlank text.toList).map replaceChar

theorem isSupported_replaceChar (c : Char) : isSupported (replaceChar c) = true := by
  unfold replaceChar
  split
  · assumption
  · rfl

theorem isBlank_of_isSupported {c : Char} (h : isSupported c = true) : Text.isBlank c = false := by
  have hblanks : ∀ n ∈ Text.blanks, isSupported (Char.ofNat n) = false := by decide
  rw [Bool.eq_false_iff]
  intro hblank
  have hc := hblanks c.toNat (List.contains_iff_mem.1 hblank)
  rw [Char.ofNat_toNat, h] at hc
  cases hc

/-- Nothing is trimmed from supported characters. -/
theorem trim_of_all (h : name.toList.all isSupported = true) :
    Text.trim Text.isBlank name.toList = name.toList :=
  Text.trim_of_forall fun c hc => isBlank_of_isSupported (List.all_eq_true.1 h c hc)

theorem supported_of_all (h : name.toList.all isSupported = true) : supported name = name.toList := by
  rw [supported, trim_of_all h]
  exact (List.map_congr_left fun c hc => if_pos (List.all_eq_true.1 h c hc)).trans (List.map_id' _)

/-- **Units accept all unit names.** -/
theorem exists_ofDatum_of_problem?_eq_none (h : problem? name = none) :
    ∃ u, MeasureUnit.ofDatum (.text name) = .ok u ∧ u.name = name := by
  obtain ⟨-, -, -, hsupported⟩ := charsProblem?_eq_none_iff.1 h
  refine ⟨⟨name, h⟩, ?_, rfl⟩
  rw [MeasureUnit.ofDatum, trim_of_all hsupported, String.ofList_toList, MeasureUnit.ofName]
  split
  · next problem hproblem =>
    rw [h] at hproblem
    cases hproblem
  · rfl

/-- A text of blanks alone has no characters that a unit name may hold. -/
theorem supported_of_isBlankText (h : isBlankText text = true) : supported text = [] := by
  have hdrop : text.toList.dropWhile Text.isBlank = [] := List.dropWhile_eq_nil_iff.2 (List.all_eq_true.1 h)
  rw [supported, Text.trim, hdrop]
  rfl

/-- What is left of a text becomes the name, if something is left. -/
theorem sanitize_eq (text : String) :
    Naming.sanitize .unit (.text text) =
      if isBlankText text then .error (.naming (.emptySource .unit))
      else if ((kept (supported text)).dropWhile isSeparator).isEmpty then .error (.naming (.nothingLeft text))
      else .ok (String.ofList ((kept (supported text)).dropWhile isSeparator)) := by
  have hchars : sanitizeChars (Text.trim Text.isBlank text.toList) =
      (kept (supported text)).dropWhile isSeparator := dropWords_eq_kept (fun _ => Iff.rfl) _
  by_cases hempty : text.isEmpty = true
  · rw [String.isEmpty_iff.1 hempty]
    rfl
  · rw [sanitize_text .unit (Bool.eq_false_iff.2 hempty)]
    simp only [sanitizeText, sanitizeUnit, sanitize?, hchars]
    cases ((kept (supported text)).dropWhile isSeparator).isEmpty <;> rfl

/-- **A text becomes the unit name that is left of it.** -/
theorem sanitize_eq_ok_iff :
    Naming.sanitize .unit (.text text) = .ok name ↔
      name ≠ "" ∧ name.toList = (kept (supported text)).dropWhile isSeparator := by
  rw [sanitize_eq]
  split
  · next hblank =>
    rw [supported_of_isBlankText hblank, kept_nil, List.dropWhile_nil, String.toList_eq_nil_iff]
    exact iff_of_false (by simp) fun h => h.1 h.2
  · split
    · next hempty =>
      rw [List.isEmpty_iff.1 hempty, String.toList_eq_nil_iff]
      exact iff_of_false (by simp) fun h => h.1 h.2
    · next hleft =>
      rw [List.isEmpty_iff] at hleft
      constructor
      · intro h
        obtain rfl := Except.ok.inj h
        rw [String.toList_ofList]
        exact ⟨fun hnil => hleft (String.ofList_eq_empty_iff.1 hnil), rfl⟩
      · rintro ⟨-, hname⟩
        rw [← hname, String.ofList_toList]

theorem category_of_sanitize_eq_error {e : Error} (h : Naming.sanitize .unit (.text text) = .error e) :
    e.category = .invalid := by
  rw [sanitize_eq] at h
  split at h
  · cases h
    rfl
  · split at h <;> cases h
    rfl

/-- The name that a text becomes reaches to the last piece that is no reserved word. -/
theorem exists_isLastFree (h : Naming.sanitize .unit (.text text) = .ok name) :
    ∃ front piece rest, IsLastFree (supported text) front piece rest ∧
      name.toList = (front ++ piece).dropWhile isSeparator := by
  obtain ⟨hne, hname⟩ := sanitize_eq_ok_iff.1 h
  rcases kept_cases (supported text) with ⟨hnil, -⟩ | ⟨front, piece, rest, hkept, hlast⟩
  · rw [hnil, List.dropWhile_nil, String.toList_eq_nil_iff] at hname
    exact absurd hname hne
  · rw [hkept] at hname
    exact ⟨front, piece, rest, hlast, hname⟩

/-- **When nothing is left of a text**: if all pieces are reserved words. -/
theorem exists_sanitize_eq_error_iff :
    (∃ e, Naming.sanitize .unit (.text text) = .error e) ↔
      ∀ front piece rest, IsPiece (supported text) front piece rest → piece ∈ reservedWords := by
  rcases kept_cases (supported text) with ⟨hnil, hall⟩ | ⟨front, piece, rest, hkept, hlast⟩
  · refine iff_of_true ?_ hall
    cases hname : Naming.sanitize .unit (.text text) with
    | error e => exact ⟨e, rfl⟩
    | ok name =>
      obtain ⟨hne, hname⟩ := sanitize_eq_ok_iff.1 hname
      rw [hnil, List.dropWhile_nil, String.toList_eq_nil_iff] at hname
      exact absurd hname hne
  · refine iff_of_false ?_ fun hall => hlast.free (hall front piece rest hlast.toIsPiece)
    rintro ⟨e, he⟩
    have hleft : String.ofList ((kept (supported text)).dropWhile isSeparator) ≠ "" := by
      rw [ne_eq, String.ofList_eq_empty_iff, hkept, dropWhile_append hlast.isPlain]
      exact List.append_ne_nil_of_right_ne_nil _ hlast.isPlain.1
    rw [sanitize_eq_ok_iff.2 ⟨hleft, String.toList_ofList⟩] at he
    cases he

/-- **What a text becomes is a unit name that is left alone.** -/
theorem of_sanitize_eq_ok (h : Naming.sanitize .unit (.text text) = .ok name) :
    problem? name = none ∧ Naming.sanitize .unit (.text name) = .ok name := by
  obtain ⟨front, piece, rest, hlast, hname⟩ := exists_isLastFree h
  have hends : name.toList = front.dropWhile isSeparator ++ piece := by
    rw [hname, dropWhile_append hlast.isPlain]
  have hopen := isOpen_dropWhile hlast.isOpen
  have hpiece : IsPiece name.toList (front.dropWhile isSeparator) piece [] :=
    ⟨by rw [hends, List.append_nil], hlast.isPlain, hopen, by simp⟩
  have hsupported : name.toList.all isSupported = true := by
    rw [List.all_eq_true]
    intro c hc
    have hmem : c ∈ supported text := by
      rw [eq_takeWhile_append hlast.toIsPiece, ← hname]
      exact List.mem_append_left _ (List.mem_append_right _ hc)
    obtain ⟨d, -, rfl⟩ := List.mem_map.1 hmem
    exact isSupported_replaceChar d
  refine ⟨charsProblem?_eq_none_of_isPiece hpiece hlast.free hsupported, sanitize_eq_ok_iff.2 ⟨?_, ?_⟩⟩
  · exact (sanitize_eq_ok_iff.1 h).1
  · rw [supported_of_all hsupported, hends, kept_append_free hopen hlast.isPlain hlast.free, ← hends, hname,
      List.dropWhile_idempotent]

/-- **Which unit name a text becomes.** Let everything that is not supported be replaced, and blanks at both ends be
dropped. If all pieces are reserved words, the text becomes none, and it is invalid. If not, the name is the part of
the text from its first piece to the last piece that is no reserved word. Units accept the name, and a second time
changes nothing. -/
theorem sanitize_unit_exact (text : String) :
    ((∃ e, Naming.sanitize .unit (.text text) = .error e) ↔
        ∀ front piece rest, IsPiece (supported text) front piece rest → piece ∈ reservedWords) ∧
      (∀ e, Naming.sanitize .unit (.text text) = .error e → e.category = .invalid) ∧
      ∀ name, Naming.sanitize .unit (.text text) = .ok name →
        (∃ front first more lead last rest, IsFirstPiece (supported text) front first more ∧
            IsLastFree (supported text) lead last rest ∧ supported text = front ++ name.toList ++ rest) ∧
          (∃ u, MeasureUnit.ofDatum (.text name) = .ok u ∧ u.name = name) ∧
          Naming.sanitize .unit (.text name) = .ok name := by
  refine ⟨exists_sanitize_eq_error_iff, fun e h => category_of_sanitize_eq_error h, fun name h => ?_⟩
  obtain ⟨hlegal, hfixed⟩ := of_sanitize_eq_ok h
  obtain ⟨lead, last, rest, hlast, hname⟩ := exists_isLastFree h
  obtain ⟨first, more, hfirst⟩ := hlast.exists_isFirstPiece
  refine ⟨⟨_, first, more, lead, last, rest, hfirst, hlast, ?_⟩, exists_ofDatum_of_problem?_eq_none hlegal, hfixed⟩
  rw [hname]
  exact eq_takeWhile_append hlast.toIsPiece

example : Naming.sanitize .unit (.text " total.m/s__info_. ") = .ok "total.m_s" := by decide +kernel

end UnitName

end Telemetry
