import Telemetry.Proofs.Text.Quoted

/-!
# Reading written forms

A written form shows its structure without loss, as long as its words and names are plain: letters, digits and
a few marks. Its leading plain characters and the character behind them say of which form it is; quotes,
brackets and commas then say where its parts end.

## Main definitions

* `Display.Readable`: structures whose words and names are plain
* `Display.Stops`: what may stand behind a written form
* `Display.formOf`: the form that the beginning of a text announces

## Main results

* `Display.separated_append_inj`: items with commas between them are told apart if the items are
* `Display.Readable.toldApart`: readable structures are told apart, whatever is behind them
* `Display.Readable.render_inj`: readable structures with the same written form are equal
-/

namespace Telemetry

namespace Display

/-! ## Plain characters -/

def IsPlain (c : Char) : Prop :=
  c.isAlphanum = true ∨ c ∈ ['.', '+', '-', '_']

instance (c : Char) : Decidable (IsPlain c) :=
  inferInstanceAs (Decidable (_ ∨ _))

/-- **Words**: plain characters, at least one. -/
def IsWord (chars : List Char) : Prop :=
  chars ≠ [] ∧ ∀ c ∈ chars, IsPlain c

-- Characters are looked through in the list, not in their type.
instance (chars : List Char) : Decidable (IsWord chars) :=
  have : Decidable (∀ c ∈ chars, IsPlain c) := List.decidableBAll IsPlain chars
  inferInstanceAs (Decidable (_ ∧ _))

/-- Plain characters at the front of a text are told apart from what is behind them. -/
theorem plain_append_inj {xs ys rest rest' : List Char} (hx : ∀ c ∈ xs, IsPlain c)
    (hy : ∀ c ∈ ys, IsPlain c) (hrest : ∀ c ∈ rest.head?, ¬IsPlain c)
    (hrest' : ∀ c ∈ rest'.head?, ¬IsPlain c) (h : xs ++ rest = ys ++ rest') : xs = ys ∧ rest = rest' := by
  induction xs generalizing ys with
  | nil =>
    cases ys with
    | nil => exact ⟨rfl, h⟩
    | cons b ys =>
      rw [List.nil_append] at h
      subst h
      exact absurd (hy b (by simp)) (hrest b rfl)
  | cons a xs ih =>
    cases ys with
    | nil =>
      rw [List.nil_append] at h
      subst h
      exact absurd (hx a (by simp)) (hrest' a rfl)
    | cons b ys =>
      rw [List.cons_append, List.cons_append, List.cons.injEq] at h
      obtain ⟨rfl, h⟩ := h
      obtain ⟨rfl, hrest⟩ := ih (fun c hc => hx c (List.mem_cons_of_mem _ hc))
        (fun c hc => hy c (List.mem_cons_of_mem _ hc)) h
      exact ⟨rfl, hrest⟩

/-! ## Readable structures -/

/-- **Structures whose words and names are plain.** -/
inductive Readable : Display → Prop
  | word {chars} : IsWord chars → Readable (.word chars)
  | text {chars} : Readable (.text chars)
  | octets {bytes} : Readable (.octets bytes)
  | tuple {items} : (∀ item ∈ items, Readable item) → Readable (.tuple items)
  | list {items} : (∀ item ∈ items, Readable item) → Readable (.list items)
  | dict {entries} : (∀ entry ∈ entries, Readable entry.1) → (∀ entry ∈ entries, Readable entry.2) →
      Readable (.dict entries)
  | record {name fields} : IsWord name.toList → (∀ field ∈ fields, IsWord field.1.toList) →
      (∀ field ∈ fields, Readable field.2) → Readable (.record name fields)

/-- **Fields whose names and values are plain.** -/
def ReadableFields (fields : List (String × Display)) : Prop :=
  ∀ field ∈ fields, IsWord field.1.toList ∧ field.2.Readable

theorem ReadableFields.nil : ReadableFields [] :=
  fun _ hfield => absurd hfield List.not_mem_nil

/-- One more field; that a given name is a word is decided. -/
theorem ReadableFields.cons {name : String} {value : Display} {rest : List (String × Display)}
    (hvalue : value.Readable) (hrest : ReadableFields rest)
    (hname : IsWord name.toList := by decide) : ReadableFields ((name, value) :: rest) :=
  List.forall_mem_cons.2 ⟨⟨hname, hvalue⟩, hrest⟩

/-- A record is readable if its name and its fields are. -/
theorem ReadableFields.record {name : String} {fields : List (String × Display)}
    (h : ReadableFields fields) (hname : IsWord name.toList := by decide) :
    Readable (.record name fields) :=
  .record hname (fun field hfield => (h field hfield).1) fun field hfield => (h field hfield).2

/-- Items are readable if they are made to be. -/
theorem readable_tuple_map {α : Type} {shape : α → Display} (h : ∀ a, (shape a).Readable)
    (xs : List α) : Readable (.tuple (xs.map shape)) := by
  refine .tuple fun item hitem => ?_
  obtain ⟨a, -, rfl⟩ := List.mem_map.1 hitem
  exact h a

def stops : List Char := [',', ')', ']', '\x7d', ':']

/-- **What may stand behind a written form**: nothing, or a text that starts with one of five
characters. -/
def Stops (rest : List Char) : Prop :=
  ∀ c ∈ rest.head?, c ∈ stops

theorem stops_nil : Stops [] := by
  simp [Stops]

theorem stops_cons {c : Char} (h : c ∈ stops) (rest : List Char) : Stops (c :: rest) := by
  simpa [Stops] using h

theorem not_isPlain_of_mem_stops {c : Char} (h : c ∈ stops) : ¬IsPlain c := by
  simp only [stops, List.mem_cons, List.not_mem_nil, or_false] at h
  rcases h with rfl | rfl | rfl | rfl | rfl <;> decide

/-! ## Forms -/

/-- The forms of structures. -/
inductive Form where
  | word
  | text
  | octets
  | tuple
  | list
  | dict
  | record

def form : Display → Form
  | .word _ => .word
  | .text _ => .text
  | .octets _ => .octets
  | .tuple _ => .tuple
  | .list _ => .list
  | .dict _ => .dict
  | .record .. => .record

/-- The plain characters at the front of a written form. -/
def lead : Display → List Char
  | .word chars => chars
  | .octets _ => ['b']
  | .record name _ => name.toList
  | _ => []

/-- What is behind the plain characters at the front of a written form. -/
def behindLead : Display → List Char
  | .word _ => []
  | .octets bytes => (octetChars bytes).tail
  | .record _ fields => '(' :: (fieldsChars fields ++ [')'])
  | d => d.chars

theorem lead_append_behindLead (d : Display) : d.lead ++ d.behindLead = d.chars := by
  cases d <;> simp [lead, behindLead, chars, octetChars]

/-- **The form that a text announces** by its leading plain characters and what is behind them. -/
def formOf (lead : List Char) : List Char → Form
  | '[' :: _ => .list
  | '\x7b' :: _ => .dict
  | '(' :: _ => if lead.isEmpty then .tuple else .record
  | '\'' :: _ => if lead.isEmpty then .text else .octets
  | '"' :: _ => if lead.isEmpty then .text else .octets
  | _ => .word

/-- The characters that open a quoted text or a bracket. -/
def openers : List Char := ['(', '[', '\x7b', '\'', '"']

theorem not_isPlain_of_mem_openers {c : Char} (h : c ∈ openers) : ¬IsPlain c := by
  simp only [openers, List.mem_cons, List.not_mem_nil, or_false] at h
  rcases h with rfl | rfl | rfl | rfl | rfl <;> decide

theorem not_mem_stops_of_mem_openers {c : Char} (h : c ∈ openers) : c ∉ stops := by
  simp only [openers, List.mem_cons, List.not_mem_nil, or_false] at h
  rcases h with rfl | rfl | rfl | rfl | rfl <;> decide

theorem quote_mem_openers {quote : Char} (h : Text.IsQuote quote) : quote ∈ openers := by
  rcases h with rfl | rfl <;> decide

theorem formOf_quote {quote : Char} (h : Text.IsQuote quote) (lead rest : List Char) :
    formOf lead (quote :: rest) = if lead.isEmpty then .text else .octets := by
  rcases h with rfl | rfl <;> rfl

theorem exists_chars_tuple (items : List Display) : ∃ rest, (tuple items).chars = '(' :: rest := by
  match items with
  | [] => exact ⟨_, rfl⟩
  | [item] => exact ⟨_, rfl⟩
  | first :: second :: items => exact ⟨_, rfl⟩

/-- Behind the plain characters at the front of a structure stands a word's end, or the opening of the rest,
which announces the form. -/
theorem Readable.isWord_or_opens {d : Display} (hd : d.Readable) :
    (∃ chars, d = .word chars ∧ IsWord chars) ∨
      ∃ c rest, d.behindLead = c :: rest ∧ c ∈ openers ∧
        ∀ more, formOf d.lead (c :: more) = d.form := by
  cases hd with
  | word hword => exact .inl ⟨_, rfl, hword⟩
  | @text chars =>
    have hquote := Text.isQuote_quoteFor chars
    exact .inr ⟨_, _, rfl, quote_mem_openers hquote, formOf_quote hquote []⟩
  | @octets bytes =>
    have hquote := Text.isQuote_quoteFor (bytes.map fun byte => Char.ofNat byte.toNat)
    exact .inr ⟨_, _, rfl, quote_mem_openers hquote, formOf_quote hquote ['b']⟩
  | @tuple items _ =>
    obtain ⟨rest, hrest⟩ := exists_chars_tuple items
    exact .inr ⟨'(', rest, hrest, by decide, fun _ => rfl⟩
  | list => exact .inr ⟨'[', _, rfl, by decide, fun _ => rfl⟩
  | dict => exact .inr ⟨'\x7b', _, rfl, by decide, fun _ => rfl⟩
  | @record name fields hname =>
    refine .inr ⟨'(', _, rfl, by decide, fun more => ?_⟩
    have hne : name.toList.isEmpty = false := List.isEmpty_eq_false_iff.2 hname.1
    simp only [formOf, lead, hne, form, Bool.false_eq_true, if_false]

/-- The characters at the front of a readable structure are plain. -/
theorem Readable.isPlain_lead {d : Display} (hd : d.Readable) : ∀ c ∈ d.lead, IsPlain c := by
  cases hd with
  | word hword => exact hword.2
  | octets => exact fun c hc => by rw [List.mem_singleton.1 hc]; decide
  | record hname => exact hname.2
  | _ => exact fun c hc => absurd hc List.not_mem_nil

/-- The plain characters at the front of a readable structure end before what is behind them. -/
theorem Readable.not_isPlain_behindLead {d : Display} (hd : d.Readable) {rest : List Char}
    (hrest : Stops rest) : ∀ c ∈ (d.behindLead ++ rest).head?, ¬IsPlain c := by
  intro c hc
  obtain ⟨chars, rfl, _⟩ | ⟨first, more, hmore, hfirst, _⟩ := hd.isWord_or_opens
  · exact not_isPlain_of_mem_stops (hrest c hc)
  · rw [hmore, List.cons_append, List.head?_cons, Option.mem_some_iff] at hc
    exact not_isPlain_of_mem_openers (hc ▸ hfirst)

theorem formOf_of_stops {lead rest : List Char} (hrest : Stops rest) : formOf lead rest = .word := by
  cases rest with
  | nil => rfl
  | cons c rest =>
    have hc : c ∈ stops := hrest c rfl
    simp only [stops, List.mem_cons, List.not_mem_nil, or_false] at hc
    rcases hc with rfl | rfl | rfl | rfl | rfl <;> rfl

/-- **A readable structure announces its form.** -/
theorem Readable.formOf_eq {d : Display} (hd : d.Readable) {rest : List Char} (hrest : Stops rest) :
    formOf d.lead (d.behindLead ++ rest) = d.form := by
  obtain ⟨chars, rfl, _⟩ | ⟨first, more, hmore, _, hform⟩ := hd.isWord_or_opens
  · exact formOf_of_stops hrest
  · rw [hmore]
    exact hform _

/-- **Readable structures with the same beginning** have the same form, the same plain characters in front,
and the same behind them. -/
theorem Readable.form_eq {d e : Display} (hd : d.Readable) (he : e.Readable) {rest rest' : List Char}
    (hrest : Stops rest) (hrest' : Stops rest') (h : d.chars ++ rest = e.chars ++ rest') :
    d.form = e.form ∧ d.lead = e.lead ∧ d.behindLead ++ rest = e.behindLead ++ rest' := by
  rw [← lead_append_behindLead d, ← lead_append_behindLead e, List.append_assoc, List.append_assoc] at h
  obtain ⟨hlead, hbehind⟩ := plain_append_inj hd.isPlain_lead he.isPlain_lead
    (hd.not_isPlain_behindLead hrest) (he.not_isPlain_behindLead hrest') h
  refine ⟨?_, hlead, hbehind⟩
  rw [← hd.formOf_eq hrest, ← he.formOf_eq hrest', hlead, hbehind]

theorem Readable.exists_chars_eq_cons {d : Display} (hd : d.Readable) :
    ∃ c rest, d.chars = c :: rest ∧ c ∉ stops := by
  rw [← lead_append_behindLead]
  cases hlead : d.lead with
  | cons c lead =>
    have hplain : IsPlain c := hd.isPlain_lead c (by simp [hlead])
    exact ⟨c, _, rfl, fun hc => not_isPlain_of_mem_stops hc hplain⟩
  | nil =>
    obtain ⟨chars, rfl, hword⟩ | ⟨first, more, hmore, hfirst, _⟩ := hd.isWord_or_opens
    · exact absurd hlead hword.1
    · exact ⟨first, more, hmore, not_mem_stops_of_mem_openers hfirst⟩

/-! ## Items with commas between them -/

def separated {α : Type} (code : α → List Char) : List α → List Char
  | [] => []
  | a :: rest => code a ++ (if rest.isEmpty then [] else comma ++ separated code rest)

def closers : List Char := [')', ']', '\x7d']

theorem mem_stops_of_mem_closers {c : Char} (h : c ∈ closers) : c ∈ stops := by
  simp only [closers, List.mem_cons, List.not_mem_nil, or_false] at h
  rcases h with rfl | rfl | rfl <;> decide

/-- What ends items: a closing bracket, perhaps with a comma in front of it. -/
def Ends (rest : List Char) : Prop :=
  (∃ c more, rest = c :: more ∧ c ∈ closers) ∨ ∃ more, rest = ',' :: ')' :: more

theorem Ends.stops {rest : List Char} (h : Ends rest) : Stops rest := by
  rcases h with ⟨c, more, rfl, hc⟩ | ⟨more, rfl⟩
  · exact stops_cons (mem_stops_of_mem_closers hc) more
  · exact stops_cons (by decide) _

theorem Ends.ne_comma {rest : List Char} (h : Ends rest) (more : List Char) : rest ≠ comma ++ more := by
  rcases h with ⟨c, others, rfl, hc⟩ | ⟨others, rfl⟩
  · intro heq
    rw [(List.cons.inj heq).1] at hc
    exact absurd hc (by decide)
  · simp [comma]

/-- **Items with commas between them are told apart**, if each is told apart from what is behind it and none
starts as items end. -/
theorem separated_append_inj {α : Type} {code : α → List Char} (good : α → Prop) {xs ys : List α}
    (hcode : ∀ a ∈ xs, ∀ b rest rest', good b → Stops rest → Stops rest' →
      code a ++ rest = code b ++ rest' → a = b ∧ rest = rest')
    (hhead : ∀ a, good a → ∃ c rest, code a = c :: rest ∧ c ∉ stops)
    (hx : ∀ a ∈ xs, good a) (hy : ∀ b ∈ ys, good b) {rest rest' : List Char} (hrest : Ends rest)
    (hrest' : Ends rest') (h : separated code xs ++ rest = separated code ys ++ rest') :
    xs = ys ∧ rest = rest' := by
  have hends {tail : List Char} (htail : Ends tail) {a : α} (ha : good a) (more : List Char) :
      tail ≠ code a ++ more := by
    intro heq
    obtain ⟨c, others, hc, hstop⟩ := hhead a ha
    exact hstop (htail.stops c (by rw [heq, hc]; rfl))
  have hmore {tail : List Char} (htail : Ends tail) (zs : List α) :
      Stops ((if zs.isEmpty then [] else comma ++ separated code zs) ++ tail) := by
    cases zs with
    | nil => exact htail.stops
    | cons z zs => exact stops_cons (by decide) _
  -- Induction on the first list; the items at the front are told apart by `hcode`.
  induction xs generalizing ys with
  | nil =>
    cases ys with
    | nil => exact ⟨rfl, h⟩
    | cons b ys =>
      rw [separated, separated, List.nil_append, List.append_assoc] at h
      exact absurd h (hends hrest (hy b List.mem_cons_self) _)
  | cons a xs ih =>
    cases ys with
    | nil =>
      rw [separated, separated, List.nil_append, List.append_assoc] at h
      exact absurd h.symm (hends hrest' (hx a List.mem_cons_self) _)
    | cons b ys =>
      rw [separated, separated, List.append_assoc, List.append_assoc] at h
      obtain ⟨rfl, htails⟩ := hcode a List.mem_cons_self b _ _ (hy b List.mem_cons_self)
        (hmore hrest xs) (hmore hrest' ys) h
      cases xs with
      | nil =>
        cases ys with
        | nil => exact ⟨rfl, htails⟩
        | cons b' ys => exact absurd (by simpa using htails) (hrest.ne_comma (separated code (b' :: ys) ++ rest'))
      | cons a' xs =>
        cases ys with
        | nil =>
          exact absurd (by simpa using htails.symm) (hrest'.ne_comma (separated code (a' :: xs) ++ rest))
        | cons b' ys =>
          simp only [List.isEmpty_cons, Bool.false_eq_true, if_false, List.append_assoc,
            List.append_cancel_left_eq] at htails
          obtain ⟨heq, hrests⟩ := ih (fun x hx' => hcode x (List.mem_cons_of_mem _ hx'))
            (fun x hx' => hx x (List.mem_cons_of_mem _ hx'))
            (fun y hy' => hy y (List.mem_cons_of_mem _ hy')) htails
          exact ⟨by rw [heq], hrests⟩

def entryChars (entry : Display × Display) : List Char :=
  entry.1.chars ++ ':' :: ' ' :: entry.2.chars

def fieldChars (field : String × Display) : List Char :=
  field.1.toList ++ '=' :: field.2.chars

theorem itemsChars_eq (items : List Display) : itemsChars items = separated chars items := by
  induction items with
  | nil => rfl
  | cons item rest ih => rw [itemsChars, separated, ih]

theorem entriesChars_eq (entries : List (Display × Display)) :
    entriesChars entries = separated entryChars entries := by
  induction entries with
  | nil => rfl
  | cons entry rest ih => rw [entriesChars, separated, ih, entryChars]

theorem fieldsChars_eq (fields : List (String × Display)) :
    fieldsChars fields = separated fieldChars fields := by
  induction fields with
  | nil => rfl
  | cons field rest ih => rw [fieldsChars, separated, ih, fieldChars]

/-- The end of a tuple; one item has a comma behind it. -/
def tupleEnd : List Display → List Char
  | [_] => [',', ')']
  | _ => [')']

theorem chars_tuple (items : List Display) :
    (tuple items).chars = '(' :: (separated chars items ++ tupleEnd items) := by
  match items with
  | [] => rfl
  | [item] => simp [chars, separated, tupleEnd]
  | first :: second :: items => rw [← itemsChars_eq]; rfl

theorem ends_tupleEnd (items : List Display) (rest : List Char) : Ends (tupleEnd items ++ rest) := by
  match items with
  | [] => exact .inl ⟨_, _, rfl, by decide⟩
  | [item] => exact .inr ⟨_, rfl⟩
  | first :: second :: items => exact .inl ⟨_, _, rfl, by decide⟩

theorem ends_cons {c : Char} (h : c ∈ closers) (rest : List Char) : Ends (c :: rest) :=
  .inl ⟨c, rest, rfl, h⟩

/-! ## Reading -/

/-- **A structure that is told apart** from all readable ones, whatever is behind them. -/
def ToldApart (d : Display) : Prop :=
  ∀ e rest rest', Readable e → Stops rest → Stops rest' → d.chars ++ rest = e.chars ++ rest' →
    d = e ∧ rest = rest'

/-- Entries are told apart if their keys and values are. -/
theorem entryChars_append_inj {a b : Display × Display} (hkey : a.1.ToldApart) (hvalue : a.2.ToldApart)
    (hb : b.1.Readable ∧ b.2.Readable) {rest rest' : List Char} (hrest : Stops rest)
    (hrest' : Stops rest') (h : entryChars a ++ rest = entryChars b ++ rest') : a = b ∧ rest = rest' := by
  simp only [entryChars, List.append_assoc, List.cons_append] at h
  obtain ⟨hkeys, h⟩ := hkey b.1 _ _ hb.1 (stops_cons (by decide) _) (stops_cons (by decide) _) h
  rw [List.cons.injEq, List.cons.injEq] at h
  obtain ⟨hvalues, hrests⟩ := hvalue b.2 _ _ hb.2 hrest hrest' h.2.2
  exact ⟨Prod.ext hkeys hvalues, hrests⟩

/-- Fields are told apart if their values are. -/
theorem fieldChars_append_inj {a b : String × Display} (hvalue : a.2.ToldApart)
    (ha : IsWord a.1.toList) (hb : IsWord b.1.toList ∧ b.2.Readable) {rest rest' : List Char}
    (hrest : Stops rest) (hrest' : Stops rest') (h : fieldChars a ++ rest = fieldChars b ++ rest') :
    a = b ∧ rest = rest' := by
  have hsign : ∀ more : List Char, ∀ c ∈ ('=' :: more).head?, ¬IsPlain c := by
    intro more c hc
    rw [List.head?_cons, Option.mem_some_iff] at hc
    rw [← hc]
    decide
  simp only [fieldChars, List.append_assoc, List.cons_append] at h
  obtain ⟨hnames, h⟩ := plain_append_inj ha.2 hb.1.2 (hsign _) (hsign _) h
  obtain ⟨hvalues, hrests⟩ := hvalue b.2 _ _ hb.2 hrest hrest' (List.cons.inj h).2
  exact ⟨Prod.ext (String.toList_inj.1 hnames) hvalues, hrests⟩

theorem items_append_inj {xs ys : List Display} (hxs : ∀ item ∈ xs, item.ToldApart)
    (hx : ∀ item ∈ xs, item.Readable) (hy : ∀ item ∈ ys, item.Readable) {rest rest' : List Char}
    (hrest : Ends rest) (hrest' : Ends rest')
    (h : separated chars xs ++ rest = separated chars ys ++ rest') : xs = ys ∧ rest = rest' :=
  separated_append_inj Readable (fun a ha b rest rest' => hxs a ha b rest rest')
    (fun _ ha => ha.exists_chars_eq_cons) hx hy hrest hrest' h

/-- **Readable structures are told apart**, whatever is behind them. -/
theorem Readable.toldApart {d : Display} (hd : d.Readable) : d.ToldApart := by
  -- Induction on the structure. Both structures announce the same form, so the other one is split by it.
  induction hd with
  | word hword =>
    intro e rest rest' he hrest hrest' h
    obtain ⟨hform, hlead, hbehind⟩ := (Readable.word hword).form_eq he hrest hrest' h
    cases he with
    | word => exact ⟨congrArg _ hlead, hbehind⟩
    | _ => cases hform
  | text =>
    intro e rest rest' he hrest hrest' h
    obtain ⟨hform, -, -⟩ := Readable.text.form_eq he hrest hrest' h
    cases he with
    | text =>
      obtain ⟨hchars, hrests⟩ := Text.quoted_append_inj h
      exact ⟨congrArg _ hchars, hrests⟩
    | _ => cases hform
  | octets =>
    intro e rest rest' he hrest hrest' h
    obtain ⟨hform, -, -⟩ := Readable.octets.form_eq he hrest hrest' h
    cases he with
    | octets =>
      obtain ⟨hbytes, hrests⟩ := octetChars_append_inj h
      exact ⟨congrArg _ hbytes, hrests⟩
    | _ => cases hform
  | @tuple items hitems ih =>
    intro e rest rest' he hrest hrest' h
    obtain ⟨hform, -, -⟩ := (Readable.tuple hitems).form_eq he hrest hrest' h
    cases he with
    | @tuple items' hitems' =>
      rw [chars_tuple, chars_tuple, List.cons_append, List.cons_append, List.append_assoc,
        List.append_assoc] at h
      obtain ⟨rfl, htails⟩ := items_append_inj ih hitems hitems' (ends_tupleEnd _ _)
        (ends_tupleEnd _ _) (List.cons.inj h).2
      exact ⟨rfl, List.append_cancel_left htails⟩
    | _ => cases hform
  | list hitems ih =>
    intro e rest rest' he hrest hrest' h
    obtain ⟨hform, -, -⟩ := (Readable.list hitems).form_eq he hrest hrest' h
    cases he with
    | list hitems' =>
      simp only [chars, itemsChars_eq, List.cons_append, List.append_assoc, List.nil_append] at h
      obtain ⟨rfl, htails⟩ := items_append_inj ih hitems hitems' (ends_cons (by decide) _)
        (ends_cons (by decide) _) (List.cons.inj h).2
      exact ⟨rfl, (List.cons.inj htails).2⟩
    | _ => cases hform
  | @dict entries hkeys hvalues ihkeys ihvalues =>
    intro e rest rest' he hrest hrest' h
    obtain ⟨hform, -, -⟩ := (Readable.dict hkeys hvalues).form_eq he hrest hrest' h
    cases he with
    | dict hkeys' hvalues' =>
      simp only [chars, entriesChars_eq, List.cons_append, List.append_assoc, List.nil_append] at h
      obtain ⟨rfl, htails⟩ := separated_append_inj (fun a => a.1.Readable ∧ a.2.Readable)
        (fun a ha b _ _ hb => entryChars_append_inj (ihkeys a ha) (ihvalues a ha) hb)
        (fun a ha => by
          obtain ⟨c, rest, hc, hstop⟩ := ha.1.exists_chars_eq_cons
          exact ⟨c, _, by rw [entryChars, hc]; rfl, hstop⟩)
        (fun a ha => ⟨hkeys a ha, hvalues a ha⟩) (fun b hb => ⟨hkeys' b hb, hvalues' b hb⟩)
        (ends_cons (by decide) _) (ends_cons (by decide) _) (List.cons.inj h).2
      exact ⟨rfl, (List.cons.inj htails).2⟩
    | _ => cases hform
  | @record name fields hname hnames hvalues ih =>
    intro e rest rest' he hrest hrest' h
    obtain ⟨hform, hlead, hbehind⟩ := (Readable.record hname hnames hvalues).form_eq he hrest hrest' h
    cases he with
    | record hname' hnames' hvalues' =>
      simp only [behindLead, fieldsChars_eq, List.cons_append, List.append_assoc, List.nil_append]
        at hbehind
      obtain ⟨rfl, htails⟩ := separated_append_inj (fun a => IsWord a.1.toList ∧ a.2.Readable)
        (fun a ha b _ _ hb => fieldChars_append_inj (ih a ha) (hnames a ha) hb)
        (fun a ha => by
          obtain ⟨c, rest, hc⟩ := List.exists_cons_of_ne_nil ha.1.1
          refine ⟨c, _, by rw [fieldChars, hc]; rfl, fun hstop => ?_⟩
          exact not_isPlain_of_mem_stops hstop (ha.1.2 c (by simp [hc])))
        (fun a ha => ⟨hnames a ha, hvalues a ha⟩) (fun b hb => ⟨hnames' b hb, hvalues' b hb⟩)
        (ends_cons (by decide) _) (ends_cons (by decide) _) (List.cons.inj hbehind).2
      exact ⟨by rw [String.toList_inj.1 hlead], (List.cons.inj htails).2⟩
    | _ => cases hform

/-- **Readable structures with the same written form are equal.** -/
theorem Readable.render_inj {d e : Display} (hd : d.Readable) (he : e.Readable)
    (h : d.render = e.render) : d = e := by
  have hchars : d.chars = e.chars := String.ofList_injective h
  refine (hd.toldApart e [] [] he stops_nil stops_nil ?_).1
  rw [List.append_nil, List.append_nil, hchars]

end Display

end Telemetry
