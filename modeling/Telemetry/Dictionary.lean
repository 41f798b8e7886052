/-!
# Dictionaries

A dictionary is a list of keys with their values, in the order in which the keys were first assigned.

## Main definitions

* `assign`: a dictionary with one more assignment
* `assignAll`: a dictionary with more assignments, one after the other

## Main results

* `lookup_assign_self`, `lookup_assign_of_ne`: an assignment is seen at its key, and only there
* `nodup_keys_assign`: no assignment repeats a key
* `mem_of_lookup_eq_some`, `lookup_eq_some_of_mem`: what is seen at a key, and that entries are seen
* `find?_key_eq_some_iff`: what is found under a key
-/

namespace Telemetry

variable {κ : Type} {α : Type} [DecidableEq κ]

/-- **One more assignment.** A key that has a value keeps its place and takes the new value. -/
def assign (key : κ) (value : α) : List (κ × α) → List (κ × α)
  | [] => [(key, value)]
  | entry :: rest => if entry.1 = key then (key, value) :: rest else entry :: assign key value rest

def assignAll (entries more : List (κ × α)) : List (κ × α) :=
  more.foldl (fun known entry => assign entry.1 entry.2 known) entries

theorem lookup_assign_self (key : κ) (value : α) (entries : List (κ × α)) :
    (assign key value entries).lookup key = some value := by
  induction entries with
  | nil => simp [assign]
  | cons entry rest ih =>
    obtain ⟨k, v⟩ := entry
    by_cases h : k = key
    · simp [assign, h]
    · have hne : (key == k) = false := by simpa using fun heq => h (Eq.symm heq)
      simp [assign, h, List.lookup_cons, hne, ih]

theorem lookup_assign_of_ne {key other : κ} (h : other ≠ key) (value : α) (entries : List (κ × α)) :
    (assign key value entries).lookup other = entries.lookup other := by
  have hne : (other == key) = false := by simpa using h
  induction entries with
  | nil => simp [assign, List.lookup_cons, hne]
  | cons entry rest ih =>
    obtain ⟨k, v⟩ := entry
    by_cases hkey : k = key
    · simp [assign, hkey, List.lookup_cons, hne]
    · simp [assign, hkey, List.lookup_cons, ih]

theorem assign_of_not_mem {key : κ} (value : α) {entries : List (κ × α)}
    (h : key ∉ entries.map (·.1)) : assign key value entries = entries ++ [(key, value)] := by
  induction entries with
  | nil => rfl
  | cons entry rest ih =>
    simp only [List.map_cons, List.mem_cons, not_or] at h
    have hne : ¬ entry.1 = key := fun heq => h.1 heq.symm
    simp [assign, hne, ih h.2]

theorem mem_keys_assign {key other : κ} {value : α} {entries : List (κ × α)} :
    other ∈ (assign key value entries).map (·.1) ↔ other = key ∨ other ∈ entries.map (·.1) := by
  induction entries with
  | nil => simp [assign]
  | cons entry rest ih =>
    by_cases h : entry.1 = key
    · simp [assign, h]
    · simp only [assign, h, if_false, List.map_cons, List.mem_cons, ih]
      exact or_left_comm

theorem nodup_keys_assign {key : κ} {value : α} {entries : List (κ × α)}
    (h : (entries.map (·.1)).Nodup) : ((assign key value entries).map (·.1)).Nodup := by
  induction entries with
  | nil => simp [assign]
  | cons entry rest ih =>
    simp only [List.map_cons, List.nodup_cons] at h
    by_cases hkey : entry.1 = key
    · subst hkey
      simpa [assign] using h
    · simp only [assign, hkey, if_false, List.map_cons, List.nodup_cons]
      refine ⟨fun hmem => ?_, ih h.2⟩
      rcases mem_keys_assign.1 hmem with heq | hmem
      · exact hkey heq
      · exact h.1 hmem

theorem mem_of_lookup_eq_some {key : κ} {value : α} {entries : List (κ × α)}
    (h : entries.lookup key = some value) : (key, value) ∈ entries := by
  induction entries with
  | nil => cases h
  | cons entry rest ih =>
    obtain ⟨k, v⟩ := entry
    rw [List.lookup_cons] at h
    by_cases hkey : key = k
    · subst hkey
      simp only [beq_self_eq_true, Option.some.injEq] at h
      rw [h]
      exact List.mem_cons_self
    · have hne : (key == k) = false := beq_eq_false_iff_ne.2 hkey
      rw [hne] at h
      exact List.mem_cons_of_mem _ (ih h)

/-- Without repeated keys, every entry is seen at its key. -/
theorem lookup_eq_some_of_mem {entries : List (κ × α)} (hkeys : (entries.map (·.1)).Nodup)
    {entry : κ × α} (h : entry ∈ entries) : entries.lookup entry.1 = some entry.2 := by
  induction entries with
  | nil => cases h
  | cons first rest ih =>
    obtain ⟨hfirst, hrest⟩ := List.nodup_cons.1 hkeys
    rw [List.lookup_cons]
    rcases List.mem_cons.1 h with rfl | h
    · simp
    · have hne : (entry.1 == first.1) = false := by
        refine beq_eq_false_iff_ne.2 fun heq => hfirst ?_
        exact List.mem_map.2 ⟨entry, h, heq⟩
      rw [hne]
      exact ih hrest h

/-- What is found under a key is the element of the key, if no two elements have the same key. -/
theorem find?_key_eq_some_iff {key : α → κ} {elements : List α}
    (hkeys : ∀ a ∈ elements, ∀ b ∈ elements, key a = key b → a = b) {k : κ} {a : α} :
    elements.find? (key · == k) = some a ↔ a ∈ elements ∧ key a = k := by
  constructor
  · intro h
    have hkey := List.find?_some h
    exact ⟨List.mem_of_find?_eq_some h, beq_iff_eq.1 hkey⟩
  · rintro ⟨ha, rfl⟩
    cases hfind : elements.find? (key · == key a) with
    | none => simpa using List.find?_eq_none.1 hfind a ha
    | some b =>
      have hkey := List.find?_some hfind
      rw [hkeys b (List.mem_of_find?_eq_some hfind) a ha (beq_iff_eq.1 hkey)]

end Telemetry
