import Telemetry.Proofs.Settings.Loading

/-!
# What the environment overrides

The environment names at most two settings: the level of the log, and the text in front of all names. Each is put into
its section of the document before the sections are read, and a section that is missing is added. The other settings in
the section stay, and so do the other sections.

There are two exceptions. The section about logging can stand under two titles, and an override knows only the preferred one.
In a document that has the other title alone, a section with nothing but the level is added beside it, and is preferred. Then
the form of the entries of the log is not that of the document any more. And a section can be a part of the document that stands
elsewhere too. Where that is a dictionary of texts, it is a setting by itself, and gets the text of the override as one more.

## Main definitions

* `Environment.level?`, `Environment.lead?`: what an environment names
* `Environment.replaced`: settings with what an environment names replaced
* `Document.hidesLog`: documents whose section about logging an override hides
* `Document.putIn`: documents with a text put into a section
* `Override.noted`: dictionaries of texts with the texts of overrides of the very same dictionaries
* `Override.Leaves`: whether an override leaves a dictionary of texts
* `Environment.applied`: what an environment makes of the settings in a document

## Main results

* `Document.texts_putIn`: what an override does to a dictionary of texts
* `Override.foldl_noted_eq_self_iff`: when overrides leave a dictionary of texts
* `Settings.override_level`, `Settings.override_lead`: what each override does to the settings in a document
* `Settings.load_eq_ok_iff`: the settings in a document under an environment
* `Environment.applied_eq_replaced_iff`, `Settings.load_replaced_iff`: when nothing but what the environment names is
  replaced
* `Settings.load_hidden_log`: a document where more is
-/

namespace Telemetry

open Checked
open Datum (lookup insertEntry)

variable {environment : Environment} {document D D' : Document} {node : Node} {entries inner : List (Datum × Node)}
  {key title lead value : String} {path : List String} {labels : List (String × String)} {s t : Settings} {n : Nat}

/-! ## Dictionaries of texts -/

/-- **A dictionary of texts with one more.** A key that is known keeps its place. -/
def putText (key value : String) (labels : List (String × String)) : List (String × String) :=
  if labels.any (·.1 == key) then labels.map fun entry => if entry.1 == key then (entry.1, value) else entry
  else labels ++ [(key, value)]

theorem insertEntry_textData (key value : String) (labels : List (String × String)) :
    insertEntry (textData labels) (.text key) (.text value) = textData (putText key value labels) := by
  have hknown : (textData labels).any (·.1.eq (.text key)) = labels.any (·.1 == key) := List.any_map
  unfold insertEntry putText
  rw [hknown]
  split
  · rw [textData, textData, List.map_map, List.map_map]
    refine List.map_congr_left fun entry _ => ?_
    rw [Function.comp_apply, Function.comp_apply]
    show (if entry.1 == key then _ else _) = _
    split <;> rfl
  · simp [textData]

theorem fst_of_mem_putText {entry : String × String} (h : entry ∈ putText key value labels) :
    entry.1 = key ∨ ∃ old ∈ labels, old.1 = entry.1 := by
  unfold putText at h
  split at h
  · obtain ⟨old, hold, rfl⟩ := List.mem_map.1 h
    refine .inr ⟨old, hold, ?_⟩
    split <;> rfl
  · rcases List.mem_append.1 h with hold | hnew
    · exact .inr ⟨entry, hold, rfl⟩
    · rw [List.mem_singleton.1 hnew]
      exact .inl rfl

/-- Whether a dictionary of texts has a text under a key, and nothing else. -/
def HasText (key value : String) (labels : List (String × String)) : Prop :=
  (∃ entry ∈ labels, entry.1 = key) ∧ ∀ entry ∈ labels, entry.1 = key → entry.2 = value

theorem any_key_iff : (labels.any (·.1 == key)) = true ↔ ∃ entry ∈ labels, entry.1 = key := by
  simp

theorem hasText_putText_self (key value : String) (labels : List (String × String)) :
    HasText key value (putText key value labels) := by
  unfold putText
  split
  · next hknown =>
    obtain ⟨entry, hentry, hkey⟩ := any_key_iff.1 hknown
    refine ⟨⟨(key, value), List.mem_map.2 ⟨entry, hentry, by simp [hkey]⟩, rfl⟩, fun new hnew heq => ?_⟩
    obtain ⟨old, -, rfl⟩ := List.mem_map.1 hnew
    split at heq
    · next hsame => rw [if_pos hsame]
    · next hother => exact absurd (beq_iff_eq.2 heq) hother
  · next hnew =>
    refine ⟨⟨(key, value), List.mem_append_right _ (List.mem_singleton.2 rfl), rfl⟩, fun entry hentry heq => ?_⟩
    rcases List.mem_append.1 hentry with hold | hlast
    · exact absurd (any_key_iff.2 ⟨entry, hold, heq⟩) hnew
    · rw [List.mem_singleton.1 hlast]

/-- A text that is put under another key changes nothing. -/
theorem mem_putText_iff_of_ne {entry : String × String} (h : entry.1 ≠ key) :
    entry ∈ putText key value labels ↔ entry ∈ labels := by
  unfold putText
  split
  · rw [List.mem_map]
    constructor
    · rintro ⟨old, hold, rfl⟩
      split at h
      · exact absurd (beq_iff_eq.1 ‹_›) h
      · rwa [if_neg ‹_›]
    · exact fun hentry => ⟨entry, hentry, if_neg (by simpa using h)⟩
  · have hne : entry ≠ (key, value) := fun heq => h (heq ▸ rfl)
    simp [hne]

theorem HasText.putText_of_ne {other text : String} (h : HasText other text labels) (hne : other ≠ key) (value : String) :
    HasText other text (putText key value labels) := by
  obtain ⟨⟨entry, hentry, hkey⟩, hall⟩ := h
  refine ⟨⟨entry, (mem_putText_iff_of_ne (hkey ▸ hne)).2 hentry, hkey⟩, fun new hnew heq => ?_⟩
  exact hall new ((mem_putText_iff_of_ne (heq ▸ hne)).1 hnew) heq

/-- **A dictionary of texts stays as it is** exactly if it has the text already. -/
theorem putText_eq_self_iff : putText key value labels = labels ↔ HasText key value labels := by
  refine ⟨fun h => h ▸ hasText_putText_self key value labels, fun ⟨hknown, hall⟩ => ?_⟩
  have hentries (entry : String × String) (hentry : entry ∈ labels) :
      (if entry.1 == key then (entry.1, value) else entry) = id entry := by
    split
    · next hkey => rw [← hall entry hentry (beq_iff_eq.1 hkey)]; rfl
    · rfl
  rw [putText, if_pos (any_key_iff.2 hknown), List.map_congr_left hentries, List.map_id]

namespace Document

/-! ## Parts on a path -/

@[simp] theorem part_empty (D : Document) (title : String) :
    D.part (.own (.dict [])) title = .own (.dict []) := rfl

theorem find?_of_part_ne (h : D.part node title ≠ .own (.dict [])) :
    D.find? node title = some (D.part node title) := by
  unfold part at h ⊢
  cases hfind : D.find? node title with
  | some part => rfl
  | none =>
    rw [hfind] at h
    exact absurd rfl h

theorem isSome_of_find? {part : Node} (h : D.find? node title = some part) : (D.entries? node).isSome := by
  obtain ⟨entries, hentries, -⟩ := Option.bind_eq_some_iff.1 h
  rw [hentries]
  rfl

/-- What is on a path from something empty is empty. -/
theorem foldl_part_empty (D : Document) (path : List String) :
    path.foldl D.part (.own (.dict [])) = .own (.dict []) := by
  induction path with
  | nil => rfl
  | cons title path ih => rw [List.foldl_cons, part_empty, ih]

/-- **A dictionary of texts is not the whole document**, if it is a section of a section. -/
theorem nodeAt_ne_top {first : String} (h : texts (D.read (n + 1) (D.nodeAt (first :: title :: path))) = .ok labels) :
    D.nodeAt (first :: title :: path) ≠ D.top := by
  intro htop
  have hpart {node : Node} (hpath : path.foldl D.part node = D.top) : node ≠ .own (.dict []) := by
    rintro rfl
    rw [foldl_part_empty] at hpath
    cases hpath
  have hinner : D.part (D.part D.top first) title ≠ .own (.dict []) := hpart htop
  have houter : D.part D.top first ≠ .own (.dict []) := by
    intro hempty
    rw [hempty, part_empty] at hinner
    exact hinner rfl
  have hsome := isSome_of_find? (find?_of_part_ne hinner)
  rw [htop] at h
  rw [D.find?_of_texts h (find?_of_part_ne houter)] at hsome
  cases hsome

/-- **A dictionary of texts is not the section that has it.** -/
theorem not_isSame_part (h : texts (D.read (n + 1) (D.part node title)) = .ok labels) :
    node.isSame (D.part node title) = false := by
  by_contra hsame
  obtain ⟨hnode, anchor, hanchor⟩ := Node.eq_of_isSame (Bool.not_eq_false _ ▸ hsame)
  have hfind := D.find?_of_part_ne (by rw [hanchor]; exact nofun : D.part node title ≠ .own (.dict []))
  rw [← hnode] at h hfind
  have hsome := isSome_of_find? hfind
  rw [D.find?_of_texts h hfind] at hsome
  cases hsome

theorem nodeAt_of_frame {keys : List String} (hframe : D.Frame keys D') (hpath : ∀ title ∈ path, title ∉ keys) :
    D'.nodeAt path = D.nodeAt path := by
  have hfoldl (node : Node) : path.foldl D'.part node = path.foldl D.part node := by
    induction path generalizing node with
    | nil => rfl
    | cons title path ih =>
      rw [List.forall_mem_cons] at hpath
      rw [List.foldl_cons, List.foldl_cons, hframe.part_eq node hpath.1, ih hpath.2]
  rw [nodeAt, nodeAt, hframe.top_eq, hfoldl]

/-! ## What an override does to a document -/

/-- Putting a value under a text leaves texts as the keys. -/
theorem HasTextKeys.insertEntry {α : Type} {entries : List (Datum × α)} (h : HasTextKeys entries) (key : String)
    (value : α) : HasTextKeys (insertEntry entries (.text key) value) := by
  intro entry hentry
  unfold Datum.insertEntry at hentry
  split at hentry
  · obtain ⟨old, hold, rfl⟩ := List.mem_map.1 hentry
    split <;> exact h old hold
  · rcases List.mem_append.1 hentry with hold | hnew
    · exact h entry hold
    · rw [List.mem_singleton.1 hnew]
      rfl

/-- **A dictionary of texts after a text was put into a section**, if the section is this very dictionary. -/
def noted (D : Document) (title key value : String) (path : List String) (labels : List (String × String)) :
    List (String × String) :=
  if (D.nodeAt [title]).isSame (D.nodeAt path) then putText key value labels else labels

theorem forall_noted (hname : LabelName.problem? key = none) (h : ∀ x ∈ labels, LabelName.problem? x.1 = none) :
    ∀ x ∈ D.noted title key value path labels, LabelName.problem? x.1 = none := by
  intro x hx
  unfold noted at hx
  split at hx
  · rcases fst_of_mem_putText hx with hkey | ⟨old, hold, hkey⟩
    · rw [hkey, hname]
    · rw [← hkey, h old hold]
  · exact h x hx

/-- **A document with a text put into a section.** -/
def putIn (D : Document) (title key value : String) (inner : List (Datum × Node)) : Document :=
  D.assignSection title (insertEntry inner (.text key) (.plain (.text value)))

section PutIn

variable (htop : D.entries? D.top = some entries) (hsection : D.entries? (D.part D.top title) = some inner)

include htop hsection

theorem frame_putIn (key value : String) : D.Frame [title, key] (D.putIn title key value inner) :=
  D.frame_assignSection htop hsection fun _ hother => Datum.lookup_insertEntry_of_ne hother _

omit htop in
theorem entries?_putIn (hne : title ≠ key) (value : String) :
    (D.putIn title key value inner).entries? ((D.putIn title key value inner).part D.top title) =
      some (insertEntry inner (.text key) (.plain (.text value))) :=
  D.entries?_part_assignSection hsection (fun _ hother => Datum.lookup_insertEntry_of_ne hother _) hne

omit htop in
theorem find?_putIn_self (hne : title ≠ key) (value : String) :
    (D.putIn title key value inner).find? ((D.putIn title key value inner).part D.top title) key =
      some (.plain (.text value)) := by
  rw [find?, entries?_putIn hsection hne, Option.bind_some, Datum.lookup_insertEntry_self]

omit htop in
theorem find?_putIn_of_ne (hne : title ≠ key) (value : String) {other : String} (hother : other ≠ key) :
    (D.putIn title key value inner).find? ((D.putIn title key value inner).part D.top title) other =
      D.find? (D.part D.top title) other := by
  rw [find?, find?, entries?_putIn hsection hne, hsection, Option.bind_some, Option.bind_some,
    Datum.lookup_insertEntry_of_ne hother]

theorem hasTextKeys_putIn (htexts : HasTextKeys entries) (key value : String) :
    ∃ entries', (D.putIn title key value inner).entries? (D.putIn title key value inner).top = some entries' ∧
      HasTextKeys entries' := by
  rw [(frame_putIn htop hsection key value).top_eq]
  unfold putIn assignSection
  split
  · next anchor hanchor =>
    by_cases hroot : D.top = .link anchor
    · -- The section is the whole document.
      rw [hanchor, ← hroot, htop, Option.some.injEq] at hsection
      subst hsection
      exact ⟨_, hroot ▸ D.entries?_assign_self anchor _, htexts.insertEntry key _⟩
    · exact ⟨entries, (D.entries?_assign_of_ne hroot _).trans htop, htexts⟩
  · rw [htop, Option.getD_some]
    exact ⟨_, D.entries?_assign_self D.root _, htexts.insertEntry title _⟩

/-- **What an override does to a dictionary of texts.** It gets one more text if it is the section itself, and stays as it
is otherwise. -/
theorem texts_putIn {first second : String} (key value : String)
    (h : texts (D.read (n + 1) (D.nodeAt (first :: second :: path))) = .ok labels) :
    texts ((D.putIn title key value inner).read (n + 1) (D.nodeAt (first :: second :: path))) =
      .ok (D.noted title key value (first :: second :: path) labels) := by
  have hframe := frame_putIn htop hsection key value
  have hne := nodeAt_ne_top h
  unfold noted
  have hsameAt : D.nodeAt [title] = D.part D.top title := rfl
  rw [hsameAt]
  generalize D.nodeAt (first :: second :: path) = node at h hne ⊢
  split
  · next hsame =>
    obtain ⟨hnode, -⟩ := Node.eq_of_isSame hsame
    rw [hnode] at hsection
    have hread := D.read_of_entries? hsection n
    rw [hread] at h
    have hdata : (D.putIn title key value inner).data n inner = textData labels :=
      textEntries_eq_ok_iff.1 ((D.textEntries_data_of_frame hframe inner).trans h)
    have hentries : (D.putIn title key value inner).entries? node =
        some (insertEntry inner (.text key) (.plain (.text value))) := D.entries?_assignSection_of_isSame hsame
    rw [read_of_entries? hentries, texts_eq_ok_iff, Datum.dict.injEq, ← insertEntry_textData, ← hdata, data,
      Datum.insertEntry_map, read_plain]
    rfl
  · next hother =>
    rw [D.texts_read_of_frame hframe (D.content_assignSection hne (by simpa using hother)) n n, h]

end PutIn

end Document

/-! ## One override -/

namespace Override

variable {o : Override} {text : String}

/-- The text of an override. An empty one counts as none. -/
def text? (o : Override) : Option String :=
  o.value.filter (· ≠ "")

theorem text?_eq_some_iff : o.text? = some text ↔ o.value = some text ∧ text ≠ "" := by
  simp [text?]

/-- Without a text, an override leaves the document. -/
theorem apply_of_text?_eq_none (h : o.text? = none) (D : Document) : o.apply D = .ok D := by
  have hunset : ¬o.IsSet := by
    rintro ⟨text, htext⟩
    rw [text?_eq_some_iff.2 htext] at h
    cases h
  have happlied := o.applied_apply D
  generalize o.apply D = result at happlied
  cases happlied with
  | unset _ => rfl
  | noDocument hset _ => exact absurd hset hunset
  | noSection _ hset _ _ _ => exact absurd hset hunset
  | changed _ _ text htext hne _ _ => exact absurd ⟨text, htext, hne⟩ hunset

/-- **An override puts its text into its section**, if the section is a dictionary or missing. -/
theorem apply_eq_putIn (h : o.text? = some text) (htop : D.entries? D.top = some entries)
    (hsection : D.entries? (D.part D.top o.title) = some inner) :
    o.apply D = .ok (D.putIn o.title o.key text inner) := by
  obtain ⟨htext, hne⟩ := text?_eq_some_iff.1 h
  have happlied := o.applied_apply D
  generalize o.apply D = result at happlied
  cases happlied with
  | unset hunset => exact absurd ⟨text, htext, hne⟩ hunset
  | noDocument _ hdocument => exact absurd ⟨entries, htop⟩ hdocument
  | noSection _ _ _ hspoilt _ =>
    rw [spoilsSection_iff.1 hspoilt] at hsection
    cases hsection
  | changed _ inner' text' htext' _ _ hinner' =>
    obtain rfl : text' = text := Option.some.inj (htext'.symm.trans htext)
    obtain rfl : inner' = inner := Option.some.inj (hinner'.symm.trans hsection)
    rfl

/-- **A dictionary of texts with the text of an override**, if the section that is overridden is this very dictionary. -/
def noted (o : Override) (document : Document) (path : List String) (labels : List (String × String)) :
    List (String × String) :=
  match o.text? with
  | some text => document.noted o.title o.key text path labels
  | none => labels

theorem noted_of_text? (h : o.text? = some text) (D : Document) (path : List String) (labels : List (String × String)) :
    o.noted D path labels = D.noted o.title o.key text path labels := by
  rw [noted, h]

/-- **Whether an override leaves a dictionary of texts**: the section that is overridden is another part of the document, or
the dictionary has the text already. -/
def Leaves (o : Override) (document : Document) (path : List String) (labels : List (String × String)) : Prop :=
  ∀ text, o.text? = some text → (document.nodeAt [o.title]).isSame (document.nodeAt path) = true →
    HasText o.key text labels

theorem noted_eq_self_iff : o.noted D path labels = labels ↔ o.Leaves D path labels := by
  unfold noted Leaves Document.noted
  cases o.text? with
  | none => simp
  | some text =>
    cases (D.nodeAt [o.title]).isSame (D.nodeAt path) with
    | true => simp [putText_eq_self_iff]
    | false => simp

theorem leaves_noted_self (o : Override) (D : Document) (path : List String) (labels : List (String × String)) :
    o.Leaves D path (o.noted D path labels) := by
  intro text htext hsame
  rw [noted_of_text? htext, Document.noted, if_pos hsame]
  exact hasText_putText_self o.key text labels

/-- An override leaves what it left before another one under another key. -/
theorem Leaves.noted_of_ne {other : Override} (h : o.Leaves D path labels) (hne : o.key ≠ other.key) :
    o.Leaves D path (other.noted D path labels) := by
  intro text htext hsame
  have hold := h text htext hsame
  unfold noted Document.noted
  split
  · split
    · exact hold.putText_of_ne hne _
    · exact hold
  · exact hold

/-- **Where a document has no anchors**, overrides leave all dictionaries of texts. -/
theorem leaves_ofDatum (o : Override) (d : Datum) (path : List String) (labels : List (String × String)) :
    o.Leaves (.ofDatum d) path labels := by
  intro text _ hsame
  obtain ⟨hnode, anchor, hanchor⟩ := Node.eq_of_isSame hsame
  have hlink : (Document.ofDatum d).part (Document.ofDatum d).top o.title = .link anchor := hnode.trans hanchor
  have hfind := Document.find?_of_part_ne (by rw [hlink]; exact nofun :
    (Document.ofDatum d).part (Document.ofDatum d).top o.title ≠ .own (.dict []))
  rw [hlink, Document.find?] at hfind
  obtain ⟨entries, hentries, hlookup⟩ := Option.bind_eq_some_iff.1 hfind
  obtain ⟨entry, hentry, hpart⟩ := Datum.mem_of_lookup hlookup
  cases d with
  | dict found =>
    cases hentries
    obtain ⟨old, -, rfl⟩ := List.mem_map.1 hentry
    cases hpart
  | _ => cases hentries

variable {os : List Override}

theorem Leaves.foldl_noted (h : o.Leaves D path labels) (hne : ∀ other ∈ os, o.key ≠ other.key) :
    o.Leaves D path (os.foldl (fun labels other => other.noted D path labels) labels) := by
  induction os generalizing labels with
  | nil => exact h
  | cons other os ih =>
    rw [List.forall_mem_cons] at hne
    exact ih (h.noted_of_ne hne.1) hne.2

/-- **Overrides under different keys leave a dictionary of texts** exactly if each of them does. -/
theorem foldl_noted_eq_self_iff (hkeys : os.Pairwise fun o other => o.key ≠ other.key) :
    os.foldl (fun labels o => o.noted D path labels) labels = labels ↔ ∀ o ∈ os, o.Leaves D path labels := by
  induction os with
  | nil => simp
  | cons o os ih =>
    obtain ⟨hne, hkeys⟩ := List.pairwise_cons.1 hkeys
    rw [List.foldl_cons, List.forall_mem_cons]
    constructor
    · intro h
      -- The text of the first override is there still, since the others have other keys.
      have hleaves : o.Leaves D path labels := h ▸ (o.leaves_noted_self D path labels).foldl_noted hne
      rw [noted_eq_self_iff.2 hleaves] at h
      exact ⟨hleaves, (ih hkeys).1 h⟩
    · rintro ⟨hleaves, hrest⟩
      rw [noted_eq_self_iff.2 hleaves, (ih hkeys).2 hrest]

end Override

/-! ## What an environment names -/

namespace Environment

/-- The level that an environment names. An empty text is none. -/
def level? (environment : Environment) : Option String :=
  environment.logLevel.filter (· ≠ "")

/-- The text in front of all names that an environment names. An empty text is none. -/
def lead? (environment : Environment) : Option String :=
  environment.nameLead.filter (· ≠ "")

/-- **Settings with what an environment names replaced.** -/
def replaced (environment : Environment) (s : Settings) : Settings :=
  { s with
    log := { s.log with level := environment.level?.getD s.log.level }
    pipeline := { s.pipeline with nameLead := environment.lead?.or s.pipeline.nameLead } }

/-- **A dictionary of texts with the texts of all overrides** whose sections are this very dictionary. -/
def noted (environment : Environment) (document : Document) (path : List String) (labels : List (String × String)) :
    List (String × String) :=
  environment.overrides.foldl (fun labels o => o.noted document path labels) labels

end Environment

namespace Document

/-- **Whether an override hides the section about logging**: it stands under the other title alone. -/
def hidesLog (document : Document) : Bool :=
  (document.find? document.top "global").isNone && (document.find? document.top "global_").isSome

end Document

/-- **What an environment makes of the settings in a document.** Where a level hides the section about logging, the form
of the entries takes its default, and a dictionary of texts that is an overridden section gets the text. -/
def Environment.applied (environment : Environment) (document : Document) (s : Settings) : Settings :=
  let t := environment.replaced s
  { log :=
      { t.log with
        format :=
          if environment.level?.isSome && document.hidesLog then LogSettings.standard.format else s.log.format }
    exporters :=
      { s.exporters with
        meter :=
          { s.exporters.meter with
            resource := environment.noted document ["exporters", "otel", "resource"] s.exporters.meter.resource } }
    pipeline :=
      { t.pipeline with
        constantLabels := environment.noted document ["pipeline", "constant_labels"] s.pipeline.constantLabels } }

/-! ## What an override does to the settings in a document -/

namespace Document

variable {o : Override} {text : String}

theorem Holds.unique (hs : D.Holds s) (ht : D.Holds t) : s = t :=
  Except.ok.inj ((Settings.ofDocument_value_iff.2 hs).symm.trans (Settings.ofDocument_value_iff.2 ht))

/-- **The section about logging that an override finds**: that of the document, or an empty one if it hides that. -/
theorem Holds.section_log (h : D.Holds s) :
    LogSettings.ofPart (D.read 3 (D.nodeAt ["global"])) = .ok (if D.hidesLog then .standard else s.log) := by
  have hempty : LogSettings.ofPart (.dict []) = .ok .standard := rfl
  have hlog := h.log
  unfold logNode at hlog
  show LogSettings.ofPart (D.read 3 (D.part D.top "global")) = _
  unfold part hidesLog
  cases hfirst : D.find? D.top "global" with
  | some part =>
    rw [hfirst] at hlog
    exact hlog
  | none =>
    rw [hfirst, Option.getD_none] at hlog
    rw [Option.getD_none, read_empty, hempty]
    cases hsecond : D.find? D.top "global_" with
    | some part => rfl
    | none =>
      have hmissing : D.nodeAt ["global_"] = .own (.dict []) := by
        show D.part D.top "global_" = _
        rw [part, hsecond]
        rfl
      rw [hmissing, read_empty, hempty] at hlog
      exact hlog

theorem Holds.constantLabels (h : D.Holds s) :
    ensure PipelineSettings.labelsFault? (texts (D.read 2 (D.nodeAt ["pipeline", "constant_labels"]))) =
      .ok s.pipeline.constantLabels :=
  (PipelineSettings.ofPart_read_iff.1 h.pipeline).2.2

section PutIn

variable (htop : D.entries? D.top = some entries) (hsection : D.entries? (D.part D.top title) = some inner)
  (h : D.Holds s)

include htop hsection h

/-- **The settings of all exporters after a text was put into another section.** -/
theorem exporters_putIn
    (hkeys : ∀ other ∈ ["exporters", "prometheus", "otel", "enabled", "prefix", "meter_name", "resource"],
      other ∉ [title, key]) (value : String) :
    ExporterSettings.ofPart ((D.putIn title key value inner).read 3
        ((D.putIn title key value inner).nodeAt ["exporters"])) =
      .ok { s.exporters with
        meter := { s.exporters.meter with
          resource := D.noted title key value ["exporters", "otel", "resource"] s.exporters.meter.resource } } := by
  obtain ⟨hexporters, hothers⟩ := List.forall_mem_cons.1 hkeys
  have hframe := frame_putIn htop hsection key value
  obtain ⟨-, -, hmeter⟩ := ExporterSettings.ofPart_read_iff.1 h.exporters
  obtain ⟨-, -, -, -, hresource⟩ := MeterSettings.ofPart_read_iff.1 hmeter
  have hresource : texts (D.read 1 (D.nodeAt ["exporters", "otel", "resource"])) = .ok s.exporters.meter.resource :=
    hresource
  rw [nodeAt_of_frame hframe (by simpa using hexporters)]
  exact ExporterSettings.ofPart_of_frame hframe hothers h.exporters (texts_putIn htop hsection key value hresource)

/-- **The settings of a pipeline after a text was put into another section** under a legal label name. -/
theorem pipeline_putIn (hkeys : ∀ other ∈ ["pipeline", "name_prefix", "constant_labels"], other ∉ [title, key])
    (hname : LabelName.problem? key = none) (value : String) :
    PipelineSettings.ofPart ((D.putIn title key value inner).read 3
        ((D.putIn title key value inner).nodeAt ["pipeline"])) =
      .ok { s.pipeline with
        constantLabels := D.noted title key value ["pipeline", "constant_labels"] s.pipeline.constantLabels } := by
  obtain ⟨hpipeline, hothers⟩ := List.forall_mem_cons.1 hkeys
  have hframe := frame_putIn htop hsection key value
  obtain ⟨hread, hfault⟩ := ensure_eq_ok_iff.1 h.constantLabels
  rw [nodeAt_of_frame hframe (by simpa using hpipeline)]
  refine PipelineSettings.ofPart_of_frame hframe hothers h.pipeline
    (ensure_eq_ok_iff.2 ⟨texts_putIn htop hsection key value hread, ?_⟩)
  rw [PipelineSettings.labelsFault?_eq_none_iff] at hfault ⊢
  exact forall_noted hname hfault

/-- **The settings about logging after a text was put into another section.** -/
theorem log_putIn (hkeys : ∀ other ∈ ["global", "global_", "log_level", "log_format"], other ∉ [title, key])
    (value : String) :
    LogSettings.ofPart ((D.putIn title key value inner).read 3 (D.putIn title key value inner).logNode) =
      .ok s.log := by
  obtain ⟨hfirst, hrest⟩ := List.forall_mem_cons.1 hkeys
  obtain ⟨hsecond, hothers⟩ := List.forall_mem_cons.1 hrest
  have hframe := frame_putIn htop hsection key value
  have hnode : (D.putIn title key value inner).logNode = D.logNode := by
    rw [logNode, logNode, hframe.top_eq, hframe.find?_eq D.top _ hfirst, nodeAt_of_frame hframe (by simpa using hsecond)]
  rw [hnode, LogSettings.ofPart_read_of_frame hframe hothers 2 2, h.log]

end PutIn

/-- **A document with another level** has it in the section about logging that an override finds. -/
theorem Holds.putIn_level (h : D.Holds s) (htop : D.entries? D.top = some entries)
    (hsection : D.entries? (D.part D.top "global") = some inner) (level : String) :
    LogSettings.ofPart ((D.putIn "global" "log_level" level inner).read 3
        (D.putIn "global" "log_level" level inner).logNode) =
      .ok ⟨level, if D.hidesLog then LogSettings.standard.format else s.log.format⟩ := by
  have hne : "global" ≠ "log_level" := by decide
  have hframe := D.frame_putIn htop hsection "log_level" level
  have hput := D.find?_putIn_self hsection hne level
  have hkept := D.find?_putIn_of_ne hsection hne level (by decide : "log_format" ≠ "log_level")
  have hentries := D.entries?_putIn hsection hne level
  have hnode : (D.putIn "global" "log_level" level inner).logNode =
      (D.putIn "global" "log_level" level inner).part D.top "global" := by
    rw [logNode, hframe.top_eq, find?_of_part_ne, Option.getD_some]
    intro hempty
    rw [hempty] at hput
    cases hput
  obtain ⟨-, -, hformat⟩ := LogSettings.ofPart_read_iff.1 h.section_log
  rw [hnode, LogSettings.ofPart_read_iff, hentries, memberAt, hput]
  refine ⟨rfl, rfl, ?_⟩
  rw [D.memberAt_of_frame hframe isShallow_logFormat hkept]
  refine hformat.trans (congrArg _ ?_)
  split <;> rfl

/-- The constant labels are not the section that has them, so they stay when a text is put there. -/
theorem Holds.noted_pipeline (h : D.Holds s) (key value : String) (labels : List (String × String)) :
    D.noted "pipeline" key value ["pipeline", "constant_labels"] labels = labels := by
  obtain ⟨hread, -⟩ := ensure_eq_ok_iff.1 h.constantLabels
  have hsame : (D.nodeAt ["pipeline"]).isSame (D.nodeAt ["pipeline", "constant_labels"]) = false :=
    not_isSame_part hread
  rw [noted, hsame]
  rfl

/-- **A document with another text in front of all names** has it in the section about the pipeline, if it may stand there. -/
theorem Holds.putIn_lead_iff (h : D.Holds s) (htop : D.entries? D.top = some entries)
    (hsection : D.entries? (D.part D.top "pipeline") = some inner) {lead : String} {found : PipelineSettings} :
    PipelineSettings.ofPart ((D.putIn "pipeline" "name_prefix" lead inner).read 3
        ((D.putIn "pipeline" "name_prefix" lead inner).nodeAt ["pipeline"])) = .ok found ↔
      mayLead lead = true ∧ found = { s.pipeline with nameLead := some lead } := by
  have hne : "pipeline" ≠ "name_prefix" := by decide
  have hput := D.find?_putIn_self hsection hne lead
  have hkept := D.find?_putIn_of_ne hsection hne lead (by decide : "constant_labels" ≠ "name_prefix")
  have hentries := D.entries?_putIn hsection hne lead
  obtain ⟨hread, hfault⟩ := ensure_eq_ok_iff.1 h.constantLabels
  have hframe := D.frame_putIn htop hsection "name_prefix" lead
  have hnode : (D.putIn "pipeline" "name_prefix" lead inner).nodeAt ["pipeline"] =
      (D.putIn "pipeline" "name_prefix" lead inner).part D.top "pipeline" := by
    show (D.putIn "pipeline" "name_prefix" lead inner).part (D.putIn "pipeline" "name_prefix" lead inner).top _ = _
    rw [hframe.top_eq]
  have hpart : (D.putIn "pipeline" "name_prefix" lead inner).part
      ((D.putIn "pipeline" "name_prefix" lead inner).part D.top "pipeline") "constant_labels" =
        D.nodeAt ["pipeline", "constant_labels"] :=
    congrArg (fun found : Option Node => found.getD (.own (.dict []))) hkept
  have hstay := texts_putIn htop hsection "name_prefix" lead hread
  rw [h.noted_pipeline] at hstay
  have hensure : ensure PipelineSettings.labelsFault?
      (texts ((D.putIn "pipeline" "name_prefix" lead inner).read 2 (D.nodeAt ["pipeline", "constant_labels"]))) =
        .ok s.pipeline.constantLabels := ensure_eq_ok_iff.2 ⟨hstay, hfault⟩
  rw [hnode, PipelineSettings.ofPart_read_iff, hentries, memberAt, hput, hpart, hensure]
  obtain ⟨foundLead, foundLabels⟩ := found
  constructor
  · rintro ⟨-, hlead, hlabels⟩
    obtain ⟨hmay, rfl⟩ := PipelineSettings.ensure_leadOfDatum_eq_ok_iff.1 (under_eq_ok_iff.1 hlead)
    cases hlabels
    exact ⟨hmay, rfl⟩
  · rintro ⟨hmay, heq⟩
    cases heq
    exact ⟨rfl, under_eq_ok_iff.2 (PipelineSettings.ensure_leadOfDatum_eq_ok_iff.2 ⟨hmay, rfl⟩), rfl⟩

end Document

namespace Environment

/-- Without a text, an environment changes nothing. -/
theorem applied_of_none (hlevel : environment.level? = none) (hlead : environment.lead? = none) (D : Document)
    (s : Settings) : environment.applied D s = s := by
  have hfirst : Override.text? ⟨"global", "log_level", environment.logLevel⟩ = none := hlevel
  have hsecond : Override.text? ⟨"pipeline", "name_prefix", environment.nameLead⟩ = none := hlead
  simp [applied, replaced, noted, overrides, Override.noted, hlevel, hlead, hfirst, hsecond]

/-- **What a level alone makes of settings.** -/
theorem applied_level {logLevel : Option String} {level : String} (h : level? ⟨logLevel, none⟩ = some level) (D : Document)
    (s : Settings) :
    applied ⟨logLevel, none⟩ D s =
      ⟨⟨level, if D.hidesLog then LogSettings.standard.format else s.log.format⟩,
        { s.exporters with meter := { s.exporters.meter with
          resource := D.noted "global" "log_level" level ["exporters", "otel", "resource"]
            s.exporters.meter.resource } },
        { s.pipeline with
          constantLabels := D.noted "global" "log_level" level ["pipeline", "constant_labels"]
            s.pipeline.constantLabels }⟩ := by
  have htext : Override.text? ⟨"global", "log_level", logLevel⟩ = some level := h
  have hnoted (path : List String) (labels : List (String × String)) :
      noted ⟨logLevel, none⟩ D path labels = D.noted "global" "log_level" level path labels :=
    Override.noted_of_text? htext D path labels
  simp [applied, replaced, hnoted, h, lead?]

/-- **What a text in front of all names alone makes of settings.** -/
theorem applied_lead {nameLead : Option String} (h : lead? ⟨none, nameLead⟩ = some lead) (D : Document) (s : Settings) :
    applied ⟨none, nameLead⟩ D s =
      ⟨s.log,
        { s.exporters with meter := { s.exporters.meter with
          resource := D.noted "pipeline" "name_prefix" lead ["exporters", "otel", "resource"]
            s.exporters.meter.resource } },
        { nameLead := some lead
          constantLabels := D.noted "pipeline" "name_prefix" lead ["pipeline", "constant_labels"]
            s.pipeline.constantLabels }⟩ := by
  have htext : Override.text? ⟨"pipeline", "name_prefix", nameLead⟩ = some lead := h
  have hnoted (path : List String) (labels : List (String × String)) :
      noted ⟨none, nameLead⟩ D path labels = D.noted "pipeline" "name_prefix" lead path labels :=
    Override.noted_of_text? htext D path labels
  simp [applied, replaced, hnoted, h, level?]

end Environment

namespace Settings

/-- **An override of the level** replaces the level, and the form of the entries too if it hides the section. -/
theorem override_level (h : D.Holds s) (value : Option String) :
    ∃ D', Override.apply ⟨"global", "log_level", value⟩ D = .ok D' ∧ D.Frame ["global", "log_level"] D' ∧
      D'.Holds (Environment.applied ⟨value, none⟩ D s) := by
  obtain ⟨entries, htop, htexts⟩ := h.textKeys
  obtain ⟨inner, hsection⟩ := Option.isSome_iff_exists.1 (LogSettings.ofPart_read_iff.1 h.section_log).1
  cases hvalue : Override.text? ⟨"global", "log_level", value⟩ with
  | none =>
    have hnone : Environment.level? ⟨value, none⟩ = none := hvalue
    exact ⟨D, Override.apply_of_text?_eq_none hvalue D, .refl D _, by rwa [Environment.applied_of_none hnone rfl]⟩
  | some level =>
    have hnamed : Environment.level? ⟨value, none⟩ = some level := hvalue
    refine ⟨D.putIn "global" "log_level" level inner, Override.apply_eq_putIn hvalue htop hsection,
      D.frame_putIn htop hsection "log_level" level, ?_⟩
    rw [Environment.applied_level hnamed]
    exact ⟨D.hasTextKeys_putIn htop hsection htexts "log_level" level, h.putIn_level htop hsection level,
      D.exporters_putIn htop hsection h (by decide) level, D.pipeline_putIn htop hsection h (by decide) (by decide) level,
      h.legal⟩

/-- **An override of the text in front of all names** replaces it, if it may stand there. -/
theorem override_lead (h : D.Holds s) (value : Option String) :
    ∃ D', Override.apply ⟨"pipeline", "name_prefix", value⟩ D = .ok D' ∧
      ∀ t, D'.Holds t ↔ (∀ lead, Environment.lead? ⟨none, value⟩ = some lead → mayLead lead = true) ∧
        t = Environment.applied ⟨none, value⟩ D s := by
  obtain ⟨entries, htop, htexts⟩ := h.textKeys
  obtain ⟨inner, hsection⟩ := Option.isSome_iff_exists.1 (PipelineSettings.ofPart_read_iff.1 h.pipeline).1
  cases hvalue : Override.text? ⟨"pipeline", "name_prefix", value⟩ with
  | none =>
    have hnone : Environment.lead? ⟨none, value⟩ = none := hvalue
    refine ⟨D, Override.apply_of_text?_eq_none hvalue D, fun t => ?_⟩
    rw [Environment.applied_of_none rfl hnone, hnone]
    exact ⟨fun ht => ⟨nofun, ht.unique h⟩, fun ⟨_, ht⟩ => ht ▸ h⟩
  | some lead =>
    have hnamed : Environment.lead? ⟨none, value⟩ = some lead := hvalue
    refine ⟨D.putIn "pipeline" "name_prefix" lead inner, Override.apply_eq_putIn hvalue htop hsection, fun t => ?_⟩
    have hlogKeys : ∀ other ∈ ["global", "global_", "log_level", "log_format"], other ∉ ["pipeline", "name_prefix"] := by
      decide
    have hexporterKeys : ∀ other ∈ ["exporters", "prometheus", "otel", "enabled", "prefix", "meter_name", "resource"],
        other ∉ ["pipeline", "name_prefix"] := by decide
    have hlog := D.log_putIn htop hsection h hlogKeys lead
    have hexporters := D.exporters_putIn htop hsection h hexporterKeys lead
    rw [Environment.applied_lead hnamed, h.noted_pipeline, hnamed]
    constructor
    · intro ht
      obtain ⟨hmay, hpipeline⟩ := (h.putIn_lead_iff htop hsection).1 ht.pipeline
      refine ⟨fun _ hlead => Option.some.inj hlead ▸ hmay, Settings.ext ?_ ?_ hpipeline⟩
      · exact Except.ok.inj (ht.log.symm.trans hlog)
      · exact Except.ok.inj (ht.exporters.symm.trans hexporters)
    · rintro ⟨hmay, rfl⟩
      exact ⟨D.hasTextKeys_putIn htop hsection htexts "name_prefix" lead, hlog, hexporters,
        (h.putIn_lead_iff htop hsection).2 ⟨hmay lead rfl, rfl⟩, h.legal⟩

end Settings

/-- Where nothing on the paths was changed, an override meets the same dictionaries. -/
theorem Document.noted_of_frame {keys : List String} (hframe : D.Frame keys D') (htitle : title ∉ keys)
    (hpath : ∀ other ∈ path, other ∉ keys) (key value : String) (labels : List (String × String)) :
    D'.noted title key value path labels = D.noted title key value path labels := by
  rw [noted, noted, nodeAt_of_frame hframe (by simpa using htitle), nodeAt_of_frame hframe hpath]

namespace Environment

/-- **When an environment replaces nothing but what it names.** -/
theorem applied_eq_replaced_iff (environment : Environment) (D : Document) (s : Settings) :
    environment.applied D s = environment.replaced s ↔
      ¬(environment.level?.isSome ∧ D.hidesLog ∧ s.log.format ≠ .text) ∧
        ∀ o ∈ environment.overrides, o.Leaves D ["pipeline", "constant_labels"] s.pipeline.constantLabels ∧
          o.Leaves D ["exporters", "otel", "resource"] s.exporters.meter.resource := by
  have hkeys : environment.overrides.Pairwise fun o other => o.key ≠ other.key :=
    List.pairwise_pair.2 (by decide : "log_level" ≠ "name_prefix")
  have hformat : (if environment.level?.isSome && D.hidesLog then LogSettings.standard.format else s.log.format) =
      s.log.format ↔ ¬(environment.level?.isSome ∧ D.hidesLog ∧ s.log.format ≠ .text) := by
    split
    · next hhidden => simp [Bool.and_eq_true_iff.1 hhidden, LogSettings.standard, eq_comm]
    · next hshown => exact iff_of_true rfl fun ⟨hset, hhides, _⟩ => hshown (Bool.and_eq_true_iff.2 ⟨hset, hhides⟩)
  have hnoted (path : List String) (labels : List (String × String)) :
      environment.noted D path labels = labels ↔ ∀ o ∈ environment.overrides, o.Leaves D path labels :=
    Override.foldl_noted_eq_self_iff hkeys
  have hexporters (resource : List (String × String)) :
      { s.exporters with meter := { s.exporters.meter with resource := resource } } = s.exporters ↔
        resource = s.exporters.meter.resource := by
    constructor
    · exact fun h => congrArg (·.meter.resource) h
    · rintro rfl
      rfl
  rw [forall₂_and, ← hnoted, ← hnoted, ← hformat]
  simp only [applied, replaced, Settings.mk.injEq, LogSettings.mk.injEq, PipelineSettings.mk.injEq, hexporters, true_and]
  exact and_congr_right fun _ => and_comm

end Environment

namespace Settings

/-! ## All overrides -/

/-- Without an environment, settings are those in the document. -/
theorem load_none (document : Document) : load ⟨none, none⟩ document = ofDocument (effective document).value := rfl

/-- **An environment does what its parts do**, one after the other. -/
theorem applied_applied (hframe : D.Frame ["global", "log_level"] D') (environment : Environment) (s : Settings) :
    Environment.applied ⟨none, environment.nameLead⟩ D' (Environment.applied ⟨environment.logLevel, none⟩ D s) =
      environment.applied D s := by
  have hnoted {path : List String} (hpath : ∀ other ∈ path, other ∉ ["global", "log_level"])
      (labels : List (String × String)) :
      Environment.noted ⟨none, environment.nameLead⟩ D' path (Environment.noted ⟨environment.logLevel, none⟩ D path labels) =
        environment.noted D path labels := by
    unfold Environment.noted Environment.overrides Override.noted
    simp only [List.foldl_cons, List.foldl_nil, D.noted_of_frame hframe (by decide : "pipeline" ∉ ["global", "log_level"]) hpath]
    rfl
  unfold Environment.applied
  rw [hnoted (by decide), hnoted (by decide)]
  simp [Environment.replaced, Environment.level?, Environment.lead?]

/-- **The settings in a document under an environment**, from those in it without. -/
theorem load_eq_ok_iff (h : load ⟨none, none⟩ document = .ok s) :
    load environment document = .ok t ↔
      (∀ lead, environment.lead? = some lead → mayLead lead = true) ∧
        t = environment.applied (effective document) s := by
  have hholds : (effective document).Holds s := ofDocument_value_iff.1 ((load_none document).symm.trans h)
  obtain ⟨D', hlevel, hframe, hholds'⟩ := override_level hholds environment.logLevel
  obtain ⟨D'', hlead, hread⟩ := override_lead hholds' environment.nameLead
  have hload : load environment document = ofDocument D''.value := by
    rw [load_eq, Environment.overrides, Override.applyAll_cons, hlevel]
    show (Override.applyAll _ D' >>= fun document => ofDocument document.value) = _
    rw [Override.applyAll_cons, hlead]
    rfl
  rw [hload, ofDocument_value_iff, hread, applied_applied hframe]
  rfl

/-- **When nothing but what an environment names is replaced.** Wherever settings are in a document without the
environment, they are in it with the environment exactly if the text that it names may stand in front of names. Then nothing
but what it names is replaced, unless it names a level and the section about logging is hidden, or the section of an
override is at the same time the constant labels or the resource. -/
theorem load_replaced_iff (h : load ⟨none, none⟩ document = .ok s) :
    ((∃ t, load environment document = .ok t) ↔ ∀ lead, environment.lead? = some lead → mayLead lead = true) ∧
      ∀ t, load environment document = .ok t →
        t = environment.applied (effective document) s ∧
          (t = environment.replaced s ↔
            ¬(environment.level?.isSome ∧ (effective document).hidesLog ∧ s.log.format ≠ .text) ∧
              ∀ o ∈ environment.overrides,
                o.Leaves (effective document) ["pipeline", "constant_labels"] s.pipeline.constantLabels ∧
                  o.Leaves (effective document) ["exporters", "otel", "resource"] s.exporters.meter.resource) := by
  constructor
  · simp only [load_eq_ok_iff h, exists_and_left, exists_eq, and_true]
  · intro t ht
    obtain ⟨-, rfl⟩ := (load_eq_ok_iff h).1 ht
    exact ⟨rfl, environment.applied_eq_replaced_iff (effective document) s⟩

/-- A document under an environment that names both, with another setting in each section. -/
theorem load_replaced_both :
    let document : Document := Datum.dict
      [(.text "global", .dict [(.text "log_format", .text "json")]),
        (.text "pipeline", .dict [(.text "constant_labels", .dict [(.text "job", .text "api")])])]
    ∃ t, load ⟨some "WARNING", some "env_"⟩ document = .ok t ∧
      t.log = ⟨"WARNING", .json⟩ ∧ t.pipeline = ⟨some "env_", [("job", "api")]⟩ := by
  intro document
  have hload : load ⟨none, none⟩ document = .ok ⟨⟨"INFO", .json⟩, .standard, ⟨none, [("job", "api")]⟩⟩ := rfl
  obtain ⟨hsuccess, hresult⟩ := @load_replaced_iff ⟨some "WARNING", some "env_"⟩ document _ hload
  obtain ⟨t, ht⟩ := hsuccess.2 fun lead hlead => by
    cases hlead
    decide
  have hshown : (effective document).hidesLog = false := rfl
  have hreplaced := (hresult t ht).2.2
    ⟨by simp [hshown], fun o _ => ⟨o.leaves_ofDatum _ _ _, o.leaves_ofDatum _ _ _⟩⟩
  exact ⟨t, ht, by rw [hreplaced]; rfl, by rw [hreplaced]; rfl⟩

/-- **A document whose form of entries is lost.** Its section about logging stands under the title that an override does
not know, so that naming a level sets the form back to the default one. -/
theorem load_hidden_log :
    let document : Document := Datum.dict
      [(.text "global_", .dict [(.text "log_level", .text "INFO"), (.text "log_format", .text "json")])]
    ∃ s t, load ⟨none, none⟩ document = .ok s ∧ load ⟨some "DEBUG", none⟩ document = .ok t ∧
      s.log = ⟨"INFO", .json⟩ ∧ t.log = ⟨"DEBUG", .text⟩ ∧ t ≠ Environment.replaced ⟨some "DEBUG", none⟩ s := by
  refine ⟨⟨⟨"INFO", .json⟩, .standard, .standard⟩, ⟨⟨"DEBUG", .text⟩, .standard, .standard⟩, rfl, rfl, rfl, rfl, ?_⟩
  decide

/-- The section about logging of this document is its constant labels too. -/
example :
    let logging : Node := .link 1
    let document : Document :=
      ⟨0, fun
        | 0 => .dict [(.text "global", logging), (.text "pipeline", .own (.dict [(.text "constant_labels", logging)]))]
        | _ => .dict [(.text "log_level", .plain (.text "INFO"))]⟩
    (load ⟨some "DEBUG", none⟩ document).toOption.map (·.pipeline.constantLabels) = some [("log_level", "DEBUG")] := rfl

end Settings

end Telemetry
