import Telemetry.Datum

/-!
# Entries of dictionaries

A value that is put under a key of a dictionary is what is found there, and what is found under the other keys is what
was there before. So it is with the sections of a document: one entry of one section can be set, and nothing else is
touched. A section that is missing counts as an empty one.

## Main definitions

* `Datum.IsDictionary`: dictionaries among data
* `Datum.sectionOf`: the section of a document under a title
* `Datum.insertAt`: a document with one entry of a section set

## Main results

* `Datum.lookup_insertEntry_self`, `Datum.lookup_insertEntry_of_ne`: what is found after a value was put under a key
-/

namespace Telemetry.Datum

variable {entries : List (Datum × Datum)} {key other : String}

/-- **Whether a datum is a dictionary.** -/
def IsDictionary (d : Datum) : Prop :=
  ∃ entries, d = .dict entries

theorem eq_text_iff {d : Datum} {s : String} : d.eq (.text s) = true ↔ d = .text s := by
  cases d <;> simp [eq]

/-! ## Putting values under keys -/

section Values

variable {α β : Type} {entries : List (Datum × α)}

/-- An entry with its value replaced if it has a key. -/
def replaceValue (key : Datum) (value : α) (entry : Datum × α) : Datum × α :=
  if entry.1.eq key then (entry.1, value) else entry

/-- Entries are found as before if values are replaced, since keys stay. -/
theorem find?_map_replaceValue (entries : List (Datum × α)) (key : Datum) (value : α) (other : String) :
    (entries.map (replaceValue key value)).find? (·.1.eq (.text other)) =
      (entries.find? (·.1.eq (.text other))).map (replaceValue key value) := by
  have hkeys : (·.1.eq (.text other)) ∘ replaceValue key value = (·.1.eq (.text other)) := by
    funext entry
    rw [Function.comp_apply, replaceValue]
    split <;> rfl
  rw [List.find?_map, hkeys]

/-- **A value that is put under a key** is what is found there. -/
theorem lookup_insertEntry_self (entries : List (Datum × α)) (key : String) (value : α) :
    lookup (insertEntry entries (.text key) value) key = some value := by
  unfold insertEntry
  split
  · next hknown =>
    obtain ⟨entry, hentry⟩ := Option.isSome_iff_exists.1 (List.find?_isSome.2 (List.any_eq_true.1 hknown))
    show Option.map (·.2) ((entries.map (replaceValue (.text key) value)).find? _) = _
    rw [find?_map_replaceValue, hentry, Option.map_some, replaceValue, if_pos (List.find?_some hentry)]
    rfl
  · next hnew =>
    have hnone : entries.find? (·.1.eq (.text key)) = none := by
      simpa [List.find?_eq_none] using hnew
    rw [lookup, List.find?_append, hnone, Option.none_or]
    simp [eq]

/-- **A value that is put under one key** leaves what is found under the others. -/
theorem lookup_insertEntry_of_ne (h : other ≠ key) (value : α) :
    lookup (insertEntry entries (.text key) value) other = lookup entries other := by
  unfold insertEntry
  split
  · show Option.map (·.2) ((entries.map (replaceValue (.text key) value)).find? _) = _
    rw [find?_map_replaceValue, lookup]
    cases hfound : entries.find? (·.1.eq (.text other)) with
    | none => rfl
    | some entry =>
      have hother := List.find?_some hfound
      have hkey : entry.1.eq (.text key) = false := by
        rw [eq_text_iff.1 hother]
        exact beq_eq_false_iff_ne.2 h
      rw [Option.map_some, replaceValue, hkey]
      rfl
  · rw [lookup, lookup, List.find?_append]
    have hnew : [(text key, value)].find? (·.1.eq (.text other)) = none := by
      simpa [eq] using h.symm
    rw [hnew, Option.or_none]

/-- What is made of the values is found where they are. -/
theorem lookup_map (f : α → β) (entries : List (Datum × α)) (key : String) :
    lookup (entries.map fun entry => (entry.1, f entry.2)) key = (lookup entries key).map f := by
  rw [lookup, lookup, List.find?_map, Option.map_map, Option.map_map]
  rfl

/-- What is made of the values is put where they are. -/
theorem insertEntry_map (f : α → β) (entries : List (Datum × α)) (key : Datum) (value : α) :
    (insertEntry entries key value).map (fun entry => (entry.1, f entry.2)) =
      insertEntry (entries.map fun entry => (entry.1, f entry.2)) key (f value) := by
  have hkeys : (entries.map fun entry => (entry.1, f entry.2)).any (·.1.eq key) = entries.any (·.1.eq key) :=
    List.any_map
  unfold insertEntry
  rw [hkeys]
  split
  · rw [List.map_map, List.map_map]
    refine List.map_congr_left fun entry _ => ?_
    rw [Function.comp_apply, Function.comp_apply]
    split <;> rfl
  · exact List.map_append

/-- What is found under a text is one of the values. -/
theorem mem_of_lookup (h : lookup entries key = some value) : ∃ entry ∈ entries, entry.2 = value := by
  obtain ⟨entry, hentry, hvalue⟩ := Option.map_eq_some_iff.1 h
  exact ⟨entry, List.mem_of_find?_eq_some hentry, hvalue⟩

end Values

/-! ## Sections -/

/-- **The section of a document under a title.** What is missing, or no dictionary, counts as empty. -/
def sectionOf (entries : List (Datum × Datum)) (title : String) : List (Datum × Datum) :=
  match lookup entries title with
  | some (.dict inner) => inner
  | _ => []

/-- **A document with one entry of a section set.** The section is that under the first title, or under the second one
in it, and so on. -/
def insertAt (entries : List (Datum × Datum)) : List String → String → Datum → List (Datum × Datum)
  | [], key, value => insertEntry entries (.text key) value
  | title :: titles, key, value =>
    insertEntry entries (.text title) (.dict (insertAt (sectionOf entries title) titles key value))

end Telemetry.Datum
