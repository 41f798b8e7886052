import Mathlib.Data.List.Nodup
import Telemetry.Proofs.Labels.Union

/-!
# Construction of label sets

A label set is made of names and values of any sort, given as two lists, one alternating list or a dictionary. Names
have to be legal and values texts, and no two names may be exposed alike. Nothing else counts: neither the order in which
labels are given nor the form. So a label set is made again from whatever it gives out.

## Main definitions

* `Label.entry`, `Labels.entries`: labels as data
* `Labels.toDatum`, `Labels.flat`: a label set as a dictionary, and as an alternating list

## Main results

* `Labels.ofPairs_eq_ok_iff`, `Labels.exists_ofPairs_iff`: which label set is made of names and values, and when
* `Labels.category_of_ofPairs_eq_error`: why there is none
* `Labels.ofDatum_toDatum`, `Labels.ofPairs_names_values`, `Labels.ofFlat_flat`: label sets are made again
* `Labels.ofPairs_canonical`: label sets are canonical
-/

namespace Telemetry

/-! ## Dictionaries -/

namespace Datum

/-- Entries with different keys are those of a dictionary. -/
theorem ofEntries_of_pairwise {entries : List (Datum × Datum)}
    (h : entries.Pairwise fun a b => a.1.eq b.1 = false) : ofEntries entries = entries := by
  have hfold (known more : List (Datum × Datum))
      (h : (known ++ more).Pairwise fun a b => a.1.eq b.1 = false) :
      more.foldl (fun known entry => insertEntry known entry.1 entry.2) known = known ++ more := by
    -- Induction on the entries that are still to come: the first one has a new key, so it is put at the end.
    induction more generalizing known with
    | nil => rw [List.foldl_nil, List.append_nil]
    | cons entry more ih =>
      have hnew : known.any (·.1.eq entry.1) = false := by
        rw [List.any_eq_false]
        intro other hother
        simpa using (List.pairwise_append.1 h).2.2 other hother entry List.mem_cons_self
      have hinsert : insertEntry known entry.1 entry.2 = known ++ [entry] := by
        unfold insertEntry
        rw [hnew]
        rfl
      rw [List.append_cons] at h
      rw [List.foldl_cons, hinsert, ih _ h, List.append_cons known entry more]
  exact hfold [] entries h

end Datum

/-- **A label as data**: its name and its value. -/
def Label.entry (x : Label) : Datum × Datum :=
  (.text x.name, .text x.value)

theorem Label.entry_injective : Function.Injective Label.entry := by
  rintro ⟨name, value⟩ ⟨name', value'⟩ h
  cases h
  rfl

namespace Labels

variable {l m : Labels} {names values : List Datum} {e : Error}

def entries (l : Labels) : List (Datum × Datum) :=
  l.labels.map Label.entry

/-- Label sets with the same labels as data are equal. -/
theorem eq_iff_perm_entries : l = m ↔ l.entries.Perm m.entries := by
  constructor
  · rintro rfl
    exact .refl _
  · intro h
    have hlabels := (List.map_perm_map_iff Label.entry_injective).1 h
    exact eq_of_mem_iff fun x => hlabels.mem_iff

/-! ## Single labels -/

/-- A label is made of its name and its value, both texts, if the name is legal. -/
theorem checkLabel_eq_ok_iff {name value : Datum} {x : Label} :
    checkLabel name value = .ok x ↔ (name, value) = x.entry ∧ LabelName.problem? x.name = none := by
  constructor
  · intro h
    unfold checkLabel at h
    split at h
    · cases h
    · split at h
      · cases h
      · next hproblem =>
        cases h
        exact ⟨rfl, hproblem⟩
      · cases h
      · cases h
  · rintro ⟨heq, hlegal⟩
    cases heq
    have hproblem : Naming.problem? .label (.text x.name) = none := hlegal
    simp only [checkLabel, hproblem]

theorem exists_checkLabel_iff {name value : Datum} :
    (∃ x, checkLabel name value = .ok x) ↔
      Naming.problem? .label name = none ∧ ∃ text, value = .text text := by
  simp only [checkLabel_eq_ok_iff]
  constructor
  · rintro ⟨x, heq, hlegal⟩
    cases heq
    exact ⟨hlegal, x.value, rfl⟩
  · rintro ⟨hlegal, text, rfl⟩
    cases name with
    | text name => exact ⟨⟨name, text⟩, rfl, hlegal⟩
    | _ => cases hlegal

theorem category_of_checkLabel_eq_error {name value : Datum} (h : checkLabel name value = .error e) :
    e.category = .invalid := by
  unfold checkLabel at h
  split at h
  · cases h
    rfl
  · split at h <;> cases h <;> rfl

/-! ## Names and values -/

theorem checkLabels_eq_mapM (names values : List Datum) :
    checkLabels names values = (names.zip values).mapM fun pair => checkLabel pair.1 pair.2 := by
  induction names generalizing values with
  | nil => rfl
  | cons name names ih =>
    cases values with
    | nil => rfl
    | cons value values =>
      rw [checkLabels, ih, List.zip_cons_cons, List.mapM_cons]

theorem category_of_ofLabels_eq_error {labels : List Label} (h : ofLabels labels = .error e) :
    e.category = .invalid := by
  unfold ofLabels at h
  split at h
  · next cause hcause =>
    cases h
    obtain ⟨x, -, hx⟩ := List.exists_of_findSome?_eq_some hcause
    obtain ⟨problem, -, rfl⟩ := Option.map_eq_some_iff.1 hx
    rfl
  · split at h
    · cases h
      rfl
    · cases h

/-- Checked labels have the pairs that they are made of. -/
theorem map_entry_of_forall₂ {pairs : List (Datum × Datum)} {labels : List Label}
    (h : List.Forall₂ (fun pair x => checkLabel pair.1 pair.2 = .ok x) pairs labels) :
    pairs = labels.map Label.entry := by
  rw [← List.forall₂_eq_eq_eq, List.forall₂_map_right_iff]
  exact h.imp fun pair x hx => (checkLabel_eq_ok_iff.1 hx).1

/-- Checked labels have the names that they are made of. -/
theorem names_eq_of_forall₂ {labels : List Label} (hlength : names.length = values.length)
    (h : List.Forall₂ (fun pair x => checkLabel pair.1 pair.2 = .ok x) (names.zip values) labels) :
    names = labels.map fun x => .text x.name := by
  rw [← List.map_fst_zip (Nat.le_of_eq hlength), map_entry_of_forall₂ h, List.map_map]
  rfl

/-- **Which label set is made of names and values**: the one that has the pairs as its labels. -/
theorem ofPairs_eq_ok_iff :
    ofPairs names values = .ok l ↔ names.length = values.length ∧ (names.zip values).Perm l.entries := by
  unfold ofPairs
  by_cases hlength : names.length = values.length
  · rw [if_pos hlength, checkLabels_eq_mapM, bind_eq_ok_iff]
    simp only [mapM_eq_ok_iff, ofLabels_eq_ok_iff, hlength, true_and]
    constructor
    · rintro ⟨labels, hlabels, hperm⟩
      rw [map_entry_of_forall₂ hlabels]
      exact hperm.map Label.entry
    · intro hperm
      have hentries : List.Forall₂ (fun pair x => checkLabel pair.1 pair.2 = .ok x) l.entries l.labels := by
        rw [entries, List.forall₂_map_left_iff]
        refine List.forall₂_same.2 fun x hx => ?_
        exact checkLabel_eq_ok_iff.2 ⟨rfl, l.legal x hx⟩
      exact List.perm_comp_forall₂ hperm hentries
  · simp [hlength]

/-- **Why names and values make no label set**: they are invalid. -/
theorem category_of_ofPairs_eq_error (h : ofPairs names values = .error e) : e.category = .invalid := by
  unfold ofPairs at h
  split at h
  · rw [checkLabels_eq_mapM] at h
    rcases bind_eq_error_iff.1 h with hcheck | ⟨labels, -, hlabels⟩
    · obtain ⟨pair, -, hpair⟩ := exists_of_mapM_eq_error hcheck
      exact category_of_checkLabel_eq_error hpair
    · exact category_of_ofLabels_eq_error hlabels
  · cases h
    rfl

theorem map_fst_entries (l : Labels) : l.entries.map Prod.fst = l.names.map .text := by
  rw [entries, Labels.names, List.map_map, List.map_map]
  rfl

theorem map_snd_entries (l : Labels) : l.entries.map Prod.snd = l.values.map .text := by
  rw [entries, Labels.values, List.map_map, List.map_map]
  rfl

/-- A label set has the names and the values that it is made of, in another order perhaps. -/
theorem perm_of_ofPairs (h : ofPairs names values = .ok l) :
    names.Perm (l.names.map .text) ∧ values.Perm (l.values.map .text) := by
  obtain ⟨hlength, hperm⟩ := ofPairs_eq_ok_iff.1 h
  have hnames := hperm.map Prod.fst
  have hvalues := hperm.map Prod.snd
  rw [List.map_fst_zip (Nat.le_of_eq hlength), map_fst_entries] at hnames
  rw [List.map_snd_zip (Nat.le_of_eq hlength.symm), map_snd_entries] at hvalues
  exact ⟨hnames, hvalues⟩

/-- The exposed names of data are pairwise distinct if those of the labels are. -/
theorem nodup_map_exposedDatum_iff {labels : List Label} :
    (labels.map fun x => Naming.exposedDatum (.text x.name)).Nodup ↔
      labels.Pairwise fun x y => x.exposedName ≠ y.exposedName := by
  have hne (x y : Label) : Naming.exposedDatum (.text x.name) ≠ Naming.exposedDatum (.text y.name) ↔
      x.exposedName ≠ y.exposedName := by
    rw [Naming.exposedDatum, Naming.exposedDatum, ne_eq, Except.ok.injEq]
    rfl
  simp only [List.Nodup, List.pairwise_map, hne]

/-- **When names and values make a label set**: there are as many names as values, all names are legal, all values are
texts, and no two names are exposed alike. -/
theorem exists_ofPairs_iff :
    (∃ l, ofPairs names values = .ok l) ↔ names.length = values.length ∧
      (∀ name ∈ names, Naming.problem? .label name = none) ∧ (∀ value ∈ values, ∃ text, value = .text text) ∧
        (names.map Naming.exposedDatum).Nodup := by
  constructor
  · rintro ⟨l, h⟩
    obtain ⟨hnames, hvalues⟩ := perm_of_ofPairs h
    refine ⟨(ofPairs_eq_ok_iff.1 h).1, fun name hname => ?_, fun value hvalue => ?_, ?_⟩
    · obtain ⟨text, htext, rfl⟩ := List.mem_map.1 (hnames.mem_iff.1 hname)
      obtain ⟨x, hx, rfl⟩ := List.mem_map.1 htext
      exact l.legal x hx
    · obtain ⟨text, -, rfl⟩ := List.mem_map.1 (hvalues.mem_iff.1 hvalue)
      exact ⟨text, rfl⟩
    · rw [(hnames.map _).nodup_iff, Labels.names, List.map_map, List.map_map]
      exact nodup_map_exposedDatum_iff.2 l.pairwise_exposedName
  · rintro ⟨hlength, hnames, hvalues, hnodup⟩
    have hcheck : ∀ pair ∈ names.zip values, ∃ x, checkLabel pair.1 pair.2 = .ok x := by
      intro pair hpair
      obtain ⟨hname, hvalue⟩ := List.of_mem_zip hpair
      exact exists_checkLabel_iff.2 ⟨hnames pair.1 hname, hvalues pair.2 hvalue⟩
    obtain ⟨labels, hlabels⟩ := exists_forall₂ hcheck
    have hlegal : ∀ x ∈ labels, LabelName.problem? x.name = none := by
      intro x hx
      obtain ⟨pair, -, hpair⟩ := exists_of_mem_right hlabels hx
      exact (checkLabel_eq_ok_iff.1 hpair).2
    have hdistinct : labels.Pairwise fun x y => x.exposedName ≠ y.exposedName := by
      rw [names_eq_of_forall₂ hlength hlabels, List.map_map] at hnodup
      exact nodup_map_exposedDatum_iff.1 hnodup
    obtain ⟨l, hl⟩ := exists_ofLabels_iff.2 ⟨hlegal, hdistinct⟩
    refine ⟨l, ofPairs_eq_ok_iff.2 ⟨hlength, ?_⟩⟩
    rw [map_entry_of_forall₂ hlabels]
    exact (ofLabels_eq_ok_iff.1 hl).map Label.entry

/-! ## What label sets give out -/

def toDatum (l : Labels) : Datum :=
  .dict (Datum.ofEntries l.entries)

/-- A label set as an alternating list of names and values. -/
def flat (l : Labels) : List Datum :=
  l.labels.flatMap fun x => [.text x.name, .text x.value]

/-- Names and values make the label set that they are from. -/
theorem ofPairs_names_values (l : Labels) : ofPairs (l.names.map .text) (l.values.map .text) = .ok l := by
  rw [ofPairs_eq_ok_iff]
  refine ⟨by simp [Labels.names, Labels.values], ?_⟩
  rw [← map_fst_entries, ← map_snd_entries, ← List.zip_of_prod rfl rfl]

/-- The dictionary of a label set has all of its labels. -/
theorem ofEntries_entries (l : Labels) : Datum.ofEntries l.entries = l.entries := by
  apply Datum.ofEntries_of_pairwise
  refine List.pairwise_map.2 (l.pairwise_exposedName.imp fun {x y} hne => ?_)
  have hname : x.name ≠ y.name := fun heq => hne (congrArg Naming.exposed heq)
  exact beq_eq_false_iff_ne.2 hname

/-- The dictionary of a label set makes that label set. -/
theorem ofDatum_toDatum (l : Labels) : ofDatum l.toDatum = .ok l := by
  rw [toDatum, ofEntries_entries, ofDatum]
  by_cases hempty : l.labels = []
  · -- The empty dictionary counts as false.
    have hl : l = empty := Labels.ext hempty
    rw [hl]
    rfl
  · have htruthy : (Datum.dict l.entries).isTruthy = true := by
      simpa [Datum.isTruthy, entries] using hempty
    rw [htruthy]
    show ofPairs (l.entries.map Prod.fst) (l.entries.map Prod.snd) = .ok l
    rw [map_fst_entries, map_snd_entries, ofPairs_names_values]

theorem alternateNames_flatMap (xs : List Label) :
    alternateNames (xs.flatMap fun x => [.text x.name, .text x.value]) = xs.map fun x => Datum.text x.name := by
  induction xs with
  | nil => rfl
  | cons x rest ih => exact congrArg (Datum.text x.name :: ·) ih

theorem alternateValues_flatMap (xs : List Label) :
    alternateValues (xs.flatMap fun x => [.text x.name, .text x.value]) = xs.map fun x => Datum.text x.value := by
  induction xs with
  | nil => rfl
  | cons x rest ih => exact congrArg (Datum.text x.value :: ·) ih

theorem alternateNames_flat (l : Labels) : alternateNames l.flat = l.names.map .text := by
  rw [flat, alternateNames_flatMap, Labels.names, List.map_map]
  rfl

theorem alternateValues_flat (l : Labels) : alternateValues l.flat = l.values.map .text := by
  rw [flat, alternateValues_flatMap, Labels.values, List.map_map]
  rfl

/-- The alternating list of a label set makes that label set. -/
theorem ofFlat_flat (l : Labels) : ofFlat l.flat = .ok l := by
  have heven : l.flat.length % 2 = 0 := by
    simp [flat, List.length_flatMap]
  rw [ofFlat, if_pos heven, alternateNames_flat, alternateValues_flat, ofPairs_names_values]

/-- **Label sets are canonical.** Exactly as many legal names as texts, of which no two names are exposed alike, make a
label set, and all else is invalid; label sets are equal exactly if they are made of the same pairs, in whatever order;
and every label set is made again from what it gives out. -/
theorem ofPairs_canonical :
    (∀ names values, ((∃ l, ofPairs names values = .ok l) ↔ names.length = values.length ∧
        (∀ name ∈ names, Naming.problem? .label name = none) ∧ (∀ value ∈ values, ∃ text, value = .text text) ∧
          (names.map Naming.exposedDatum).Nodup) ∧
        ∀ e, ofPairs names values = .error e → e.category = .invalid) ∧
      (∀ names values names' values' l m, ofPairs names values = .ok l → ofPairs names' values' = .ok m →
        (l = m ↔ (names.zip values).Perm (names'.zip values'))) ∧
      ∀ l : Labels, ofDatum l.toDatum = .ok l ∧ ofPairs (l.names.map .text) (l.values.map .text) = .ok l ∧
        ofFlat l.flat = .ok l := by
  refine ⟨fun names values => ⟨exists_ofPairs_iff, fun e h => category_of_ofPairs_eq_error h⟩, ?_, fun l => ?_⟩
  · intro names values names' values' l m hl hm
    obtain ⟨-, hl⟩ := ofPairs_eq_ok_iff.1 hl
    obtain ⟨-, hm⟩ := ofPairs_eq_ok_iff.1 hm
    rw [eq_iff_perm_entries]
    constructor
    · intro h
      exact hl.trans (h.trans hm.symm)
    · intro h
      exact hl.symm.trans (h.trans hm)
  · exact ⟨l.ofDatum_toDatum, l.ofPairs_names_values, l.ofFlat_flat⟩

/-- Two labels make the same label set in both orders; with a name that is exposed like another one, they make none. -/
theorem ofPairs_both_orders :
    (∃ l, ofPairs [.text "b.c", .text "a"] [.text "1", .text "2"] = .ok l ∧
        ofPairs [.text "a", .text "b.c"] [.text "2", .text "1"] = .ok l) ∧
      ¬∃ l, ofPairs [.text "b.c", .text "b_c"] [.text "1", .text "2"] = .ok l := by
  obtain ⟨hexists, hequal, -⟩ := ofPairs_canonical
  obtain ⟨l, hl⟩ := (hexists [.text "b.c", .text "a"] [.text "1", .text "2"]).1.2
    ⟨rfl, by decide, by simp, by decide⟩
  obtain ⟨m, hm⟩ := (hexists [.text "a", .text "b.c"] [.text "2", .text "1"]).1.2
    ⟨rfl, by decide, by simp, by decide⟩
  obtain rfl : l = m := (hequal _ _ _ _ l m hl hm).2 (List.Perm.swap _ _ [])
  refine ⟨⟨l, hl, hm⟩, fun h => ?_⟩
  obtain ⟨-, -, -, hnodup⟩ := (hexists _ _).1.1 h
  exact absurd hnodup (by decide)

end Labels

end Telemetry
