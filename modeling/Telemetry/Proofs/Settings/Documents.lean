import Telemetry.Proofs.Settings.Parts
import Telemetry.Settings.Load

/-!
# Reading documents

A part of a document is checked by the parts that are found in it under fixed keys. Most of them have to be texts or truth
values, and what is wrong with a list or a dictionary there does not depend on what is in it. So a check looks a few levels
deep: what is further down does not matter, and neither does what stands under other keys. That is all that there is to
changes of a document. A change of one dictionary is seen by the checks of all parts that stand at its anchor, and these can
only tell if they look up the key that was changed, or take the dictionary as a whole.

## Main definitions

* `Checked.IsShallow`: checks that do not look into lists and dictionaries
* `Node.isSame`: whether two parts are one and the same
* `Document.memberAt`: what is checked under a key of a part
* `Document.Frame`: changes of a document under some keys only

## Main results

* `Document.frame_assign`, `Document.frame_assignSection`: other entries of a dictionary change nothing under the keys at
  which they agree
* `Document.memberAt_of_frame`, `Document.texts_read_of_frame`: what a change leaves to checks
-/

namespace Telemetry

open Checked
open Datum (lookup insertEntry)

/-! ## Checks of single parts -/

/-- Whether a datum is neither a list nor a dictionary. -/
def Datum.IsScalar : Datum → Prop
  | .list _ | .dict _ => False
  | _ => True

namespace Checked

variable {α : Type}

/-- **Checks that do not look into lists and dictionaries.** -/
def IsShallow (check : Datum → Checked α) : Prop :=
  ∀ d e : Datum, ¬d.IsScalar → ¬e.IsScalar → check d = check e

theorem isShallow_of_refuse {check : Datum → Checked α} {fault : Fault} (hlist : ∀ items, check (.list items) = refuse fault)
    (hdict : ∀ entries, check (.dict entries) = refuse fault) : IsShallow check := by
  have hrefused (d : Datum) (hd : ¬d.IsScalar) : check d = refuse fault := by
    cases d with
    | list items => exact hlist items
    | dict entries => exact hdict entries
    | _ => exact absurd trivial hd
  intro d e hd he
  rw [hrefused d hd, hrefused e he]

theorem isShallow_text : IsShallow text :=
  isShallow_of_refuse (fun _ => rfl) fun _ => rfl

theorem isShallow_truth : IsShallow truth :=
  isShallow_of_refuse (fun _ => rfl) fun _ => rfl

theorem isShallow_logFormat : IsShallow LogFormat.ofDatum :=
  isShallow_of_refuse (fun _ => rfl) fun _ => rfl

theorem isShallow_lead :
    IsShallow fun d => ensure PipelineSettings.leadFault? (PipelineSettings.leadOfDatum d) :=
  isShallow_of_refuse (fun _ => rfl) fun _ => rfl

end Checked

/-! ## Parts of documents -/

/-- **Whether two parts are one and the same**, as links to one anchor are. What is changed in one of them is changed in the
other. -/
def Node.isSame : Node → Node → Bool
  | .link anchor, .link other => anchor == other
  | _, _ => false

theorem Node.eq_of_isSame {node other : Node} (h : node.isSame other = true) :
    node = other ∧ ∃ anchor, other = .link anchor := by
  cases node with
  | own content => cases h
  | link anchor =>
    cases other with
    | own content => cases h
    | link anchor' =>
      obtain rfl : anchor = anchor' := beq_iff_eq.1 h
      exact ⟨rfl, anchor, rfl⟩

namespace Document

variable {α : Type} {D D' : Document} {node other : Node} {key title : String} {entries inner : List (Datum × Node)}
  {keys : List String} {check : Datum → Checked α} {default x : α} {m n anchor : Nat}

@[simp] theorem read_plain (D : Document) (n : Nat) (d : Datum) : D.read n (.plain d) = d := by
  cases n <;> rfl

@[simp] theorem read_empty (D : Document) (n : Nat) : D.read n (.own (.dict [])) = .dict [] := by
  cases n <;> rfl

theorem read_of_plain {d : Datum} (h : D.content node = .plain d) (n : Nat) : D.read n node = d := by
  cases n <;> rw [read, h]

theorem exists_read_of_list {items : List Node} (h : D.content node = .list items) (n : Nat) :
    ∃ shown, D.read n node = .list shown := by
  cases n <;> exact ⟨_, by rw [read, h]⟩

theorem exists_read_of_dict (h : D.content node = .dict entries) (n : Nat) :
    ∃ shown, D.read n node = .dict shown := by
  cases n <;> exact ⟨_, by rw [read, h]⟩

/-- **A part has entries exactly if it is a dictionary.** -/
theorem isDictionary_read_iff (D : Document) (n : Nat) (node : Node) :
    (D.read n node).IsDictionary ↔ (D.entries? node).isSome := by
  unfold entries?
  cases hcontent : D.content node with
  | plain d =>
    rw [read_of_plain hcontent]
    cases d <;> simp [Content.entries?, Datum.IsDictionary]
  | list items =>
    obtain ⟨shown, hshown⟩ := exists_read_of_list hcontent n
    simp [hshown, Content.entries?, Datum.IsDictionary]
  | dict found =>
    obtain ⟨shown, hshown⟩ := exists_read_of_dict hcontent n
    simp [hshown, Content.entries?, Datum.IsDictionary]

def data (D : Document) (n : Nat) (entries : List (Datum × Node)) : List (Datum × Datum) :=
  entries.map fun entry => (entry.1, D.read n entry.2)

theorem read_of_entries? (h : D.entries? node = some entries) (n : Nat) :
    D.read (n + 1) node = .dict (D.data n entries) := by
  unfold entries? at h
  rw [read]
  cases hcontent : D.content node with
  | plain d =>
    rw [hcontent] at h
    cases d with
    | dict shown =>
      cases h
      simp [data, Function.comp_def]
    | _ => cases h
  | list items =>
    rw [hcontent] at h
    cases h
  | dict found =>
    rw [hcontent] at h
    cases h
    rfl

/-! ## What is checked under a key -/

/-- **What is checked under a key of a part**, if anything is there. -/
def memberAt (D : Document) (n : Nat) (node : Node) (key : String) (default : α) (check : Datum → Checked α) :
    Checked α :=
  match D.find? node key with
  | some part => under key (check (D.read n part))
  | none => .ok default

theorem member_data (h : D.entries? node = some entries) :
    member (D.data n entries) key default check = D.memberAt n node key default check := by
  have hfind : D.find? node key = lookup entries key := by rw [find?, h, Option.bind_some]
  rw [member, memberAt, data, Datum.lookup_map, hfind]
  cases lookup entries key <;> rfl

/-- A part that is missing is checked like an empty dictionary, if the default is what one gives. -/
theorem memberAt_eq_ok_iff (hempty : check (.dict []) = .ok default) :
    D.memberAt n node key default check = .ok x ↔ check (D.read n (D.part node key)) = .ok x := by
  unfold memberAt part
  cases D.find? node key with
  | some part => exact under_eq_ok_iff
  | none => rw [Option.getD_none, read_empty, hempty]

/-! ## Changes under some keys -/

/-- **Changes under some keys only.** Every dictionary stays one, and all that is not a dictionary stays as it is. -/
structure Frame (D : Document) (keys : List String) (D' : Document) : Prop where
  root_eq : D'.root = D.root
  content_eq : ∀ node, D.entries? node = none → D'.content node = D.content node
  isSome_eq : ∀ node, (D'.entries? node).isSome = (D.entries? node).isSome
  find?_eq : ∀ node, ∀ key ∉ keys, D'.find? node key = D.find? node key

theorem Frame.refl (D : Document) (keys : List String) : D.Frame keys D :=
  ⟨rfl, fun _ _ => rfl, fun _ => rfl, fun _ _ _ => rfl⟩

theorem Frame.top_eq (h : D.Frame keys D') : D'.top = D.top := by
  rw [top, top, h.root_eq]

theorem Frame.part_eq (h : D.Frame keys D') (node : Node) (hkey : key ∉ keys) : D'.part node key = D.part node key := by
  rw [part, part, h.find?_eq node key hkey]

theorem entries?_assign_self (D : Document) (anchor : Nat) (entries : List (Datum × Node)) :
    (D.assign anchor entries).entries? (.link anchor) = some entries := by
  simp [entries?, content, assign, Content.entries?]

theorem content_assign_of_ne (h : node ≠ .link anchor) (D : Document) (entries : List (Datum × Node)) :
    (D.assign anchor entries).content node = D.content node := by
  cases node with
  | own content => rfl
  | link other =>
    have hne : other ≠ anchor := fun heq => h (congrArg Node.link heq)
    simp [content, assign, hne]

theorem entries?_assign_of_ne (h : node ≠ .link anchor) (D : Document) (entries : List (Datum × Node)) :
    (D.assign anchor entries).entries? node = D.entries? node := by
  rw [entries?, entries?, content_assign_of_ne h]

/-- **Other entries of a dictionary change nothing under the keys at which they agree.** -/
theorem frame_assign (h : D.entries? (.link anchor) = some entries)
    (hagree : ∀ key ∉ keys, lookup inner key = lookup entries key) : D.Frame keys (D.assign anchor inner) where
  root_eq := rfl
  content_eq node hnone := by
    refine content_assign_of_ne ?_ D inner
    rintro rfl
    rw [h] at hnone
    cases hnone
  isSome_eq node := by
    by_cases heq : node = .link anchor
    · rw [heq, entries?_assign_self, h]
      rfl
    · rw [entries?_assign_of_ne heq]
  find?_eq node key hkey := by
    by_cases heq : node = .link anchor
    · rw [heq, find?, find?, entries?_assign_self, h, Option.bind_some, Option.bind_some, hagree key hkey]
    · rw [find?, find?, entries?_assign_of_ne heq]

/-- What is not looked into is checked as before. -/
theorem check_read_of_frame (hframe : D.Frame keys D') (hcheck : IsShallow check) (m n : Nat) (node : Node) :
    check (D'.read m node) = check (D.read n node) := by
  cases hentries : D.entries? node with
  | some entries =>
    have hold : (D.read n node).IsDictionary := (isDictionary_read_iff D n node).2 (by rw [hentries]; rfl)
    have hnew : (D'.read m node).IsDictionary :=
      (isDictionary_read_iff D' m node).2 (by rw [hframe.isSome_eq, hentries]; rfl)
    obtain ⟨shown, hshown⟩ := hold
    obtain ⟨shown', hshown'⟩ := hnew
    rw [hshown, hshown']
    exact hcheck _ _ id id
  | none =>
    have hsame := hframe.content_eq node hentries
    cases hcontent : D.content node with
    | plain d => rw [read_of_plain hcontent, read_of_plain (hsame.trans hcontent)]
    | list items =>
      obtain ⟨shown, hshown⟩ := exists_read_of_list hcontent n
      obtain ⟨shown', hshown'⟩ := exists_read_of_list (hsame.trans hcontent) m
      rw [hshown, hshown']
      exact hcheck _ _ id id
    | dict found =>
      rw [entries?, hcontent] at hentries
      cases hentries

/-- **A member that is not looked into is checked as before**, where its key leads to what it led to. -/
theorem memberAt_of_frame (hframe : D.Frame keys D') (hcheck : IsShallow check)
    (hfind : D'.find? other key = D.find? node key) :
    D'.memberAt m other key default check = D.memberAt n node key default check := by
  unfold memberAt
  rw [hfind]
  cases D.find? node key with
  | some part => exact congrArg (under key) (check_read_of_frame hframe hcheck m n part)
  | none => rfl

/-- Members with another check are checked as before if what is found is. -/
theorem memberAt_congr {check' : Datum → Checked α} (hfind : D'.find? other key = D.find? node key)
    (hcheck : ∀ part, D.find? node key = some part → check' (D'.read m part) = check (D.read n part)) :
    D'.memberAt m other key default check' = D.memberAt n node key default check := by
  unfold memberAt
  rw [hfind]
  cases hpart : D.find? node key with
  | some part => exact congrArg (under key) (hcheck part hpart)
  | none => rfl

/-! ## Dictionaries of texts -/

theorem textEntries_data_of_frame (hframe : D.Frame keys D') (entries : List (Datum × Node)) :
    textEntries (D'.data m entries) = textEntries (D.data n entries) := by
  induction entries with
  | nil => rfl
  | cons entry rest ih =>
    have hvalue : text (D'.read m entry.2) = text (D.read n entry.2) :=
      check_read_of_frame hframe isShallow_text m n entry.2
    show (both (textEntry entry.1 _) (textEntries (D'.data m rest))).map _ =
      (both (textEntry entry.1 _) (textEntries (D.data n rest))).map _
    rw [ih, textEntry, textEntry, hvalue]

/-- **A dictionary of texts is checked as before** if it is not the one that changes. -/
theorem texts_read_of_frame (hframe : D.Frame keys D') (hsame : D'.content node = D.content node) (m n : Nat) :
    texts (D'.read (m + 1) node) = texts (D.read (n + 1) node) := by
  cases hcontent : D.content node with
  | plain d => rw [read_of_plain hcontent, read_of_plain (hsame.trans hcontent)]
  | list items => rw [read, read, hsame, hcontent]; rfl
  | dict entries =>
    rw [read, read, hsame, hcontent]
    exact textEntries_data_of_frame hframe entries

/-- A dictionary of texts has no dictionary in it. -/
theorem find?_of_texts {labels : List (String × String)} (h : texts (D.read (n + 1) node) = .ok labels)
    (hfind : D.find? node key = some other) : D.entries? other = none := by
  obtain ⟨entries, hentries, hlookup⟩ := Option.bind_eq_some_iff.1 hfind
  obtain ⟨entry, hentry, rfl⟩ := Datum.mem_of_lookup hlookup
  rw [read_of_entries? hentries, texts_eq_ok_iff, Datum.dict.injEq] at h
  have hmem : (entry.1, D.read n entry.2) ∈ textData labels := h ▸ List.mem_map_of_mem hentry
  obtain ⟨label, -, hlabel⟩ := List.mem_map.1 hmem
  have hread : D.read n entry.2 = .text label.2 := (Prod.mk.inj hlabel).2.symm
  cases hinner : D.entries? entry.2 with
  | none => rfl
  | some inner =>
    obtain ⟨shown, hshown⟩ := (isDictionary_read_iff D n entry.2).2 (by rw [hinner]; rfl)
    rw [hread] at hshown
    cases hshown

/-! ## Changes of sections -/

variable {changed : List (Datum × Node)}

/-- **Other entries of a section change nothing else** than what stands under its title and under their keys. -/
theorem frame_assignSection (htop : D.entries? D.top = some entries)
    (hsection : D.entries? (D.part D.top title) = some inner)
    (hagree : ∀ other ≠ key, lookup changed other = lookup inner other) :
    D.Frame [title, key] (D.assignSection title changed) := by
  unfold assignSection
  split
  · next anchor hanchor =>
    rw [hanchor] at hsection
    refine frame_assign hsection fun other hother => hagree other ?_
    rintro rfl
    simp at hother
  · refine frame_assign htop fun other hother => ?_
    have hne : other ≠ title := by
      rintro rfl
      simp at hother
    rw [htop, Option.getD_some, Datum.lookup_insertEntry_of_ne hne]

/-- **A section has the entries that it is given.** -/
theorem entries?_part_assignSection (hsection : D.entries? (D.part D.top title) = some inner)
    (hagree : ∀ other ≠ key, lookup changed other = lookup inner other) (hne : title ≠ key) :
    (D.assignSection title changed).entries? ((D.assignSection title changed).part D.top title) = some changed := by
  unfold assignSection
  split
  · next anchor hanchor =>
    rw [hanchor] at hsection
    -- The title leads to the anchor still, also if the whole document is what stands there.
    have hpart : (D.assign anchor changed).part D.top title = D.part D.top title := by
      have hframe : D.Frame [key] (D.assign anchor changed) :=
        frame_assign hsection fun other hother => hagree other (by simpa using hother)
      exact hframe.part_eq D.top (by simpa using hne)
    rw [hpart, hanchor, entries?_assign_self]
  · have hfind (found : List (Datum × Node)) : (D.assign D.root found).find? D.top title = lookup found title := by
      rw [find?, top, entries?_assign_self, Option.bind_some]
    rw [part, hfind, Datum.lookup_insertEntry_self]
    rfl

/-- What is not the section, nor the whole document, is what it was. -/
theorem content_assignSection (htop : node ≠ D.top) (hother : (D.part D.top title).isSame node = false) :
    (D.assignSection title changed).content node = D.content node := by
  unfold assignSection
  split
  · next anchor hanchor =>
    refine content_assign_of_ne ?_ D changed
    rintro rfl
    simp [hanchor, Node.isSame] at hother
  · exact content_assign_of_ne htop D _

theorem entries?_assignSection_of_isSame (hsame : (D.part D.top title).isSame node = true) :
    (D.assignSection title changed).entries? node = some changed := by
  obtain ⟨hpart, anchor, rfl⟩ := Node.eq_of_isSame hsame
  rw [assignSection, hpart]
  exact entries?_assign_self D anchor changed

end Document

end Telemetry
