import Telemetry.Proofs.Labels.Construction

/-!
# Adding labels

A label is added to a label set if its name is legal and no label of the set is exposed like it. The set that comes out
is the one that has the label besides those that were there before. So it is the union with the set of this label alone,
and the set that is made of all labels at once; and of labels that are added one after the other only matters which
ones they are.

Adding looks for the name itself and leaves names that are exposed alike to the construction, while a union looks for
exposed names. Both are compared with the permutation of the labels.

## Main definitions

* `Labels.addLabel`, `Labels.addAll`: a label set with one more label, and with one label after the other
* `Labels.MadeOf`: label sets that are made of given labels at once, in whatever form these are given

## Main results

* `Labels.addLabel_eq_ok_iff`, `Labels.exists_addLabel_iff`: which label set has one more label, and when there is one
* `Labels.category_of_add_eq_error`: why there is none
* `Labels.madeOf_iff_perm`: which label set is made of labels at once
* `Labels.addAll_eq_ok_iff`: which label set has one label after the other added
* `Labels.add_agrees_with_merge`: adding agrees with uniting and with making
-/

namespace Telemetry

namespace Labels

variable {k l m n : Labels} {x : Label} {xs ys : List Label} {e : Error}

/-! ## One label -/

/-- **One more label**, whose name and value are texts. -/
def addLabel (l : Labels) (x : Label) : Except Error Labels :=
  l.add (.text x.name) (.text x.value)

theorem addLabel_eq (l : Labels) (x : Label) :
    l.addLabel x = if x.name ∈ l.names then .error (.label (.existing x.name))
      else ofPairs (l.names.map .text ++ [.text x.name]) (l.values.map .text ++ [.text x.value]) := by
  have hknown : (l.names.any fun known => (Datum.text x.name).eq (.text known)) = true ↔ x.name ∈ l.names := by
    simp [Datum.eq]
  unfold addLabel add
  simp only [hknown]
  rfl

/-- The pairs of a label set with one more label. -/
theorem zip_names_values_concat (l : Labels) (x : Label) :
    (l.names.map Datum.text ++ [Datum.text x.name]).zip (l.values.map Datum.text ++ [Datum.text x.value]) =
      l.entries ++ [x.entry] := by
  rw [← map_fst_entries, ← map_snd_entries,
    List.zip_append (by rw [List.length_map, List.length_map]), ← List.zip_of_prod rfl rfl]
  rfl

theorem perm_entries_concat_iff : (l.entries ++ [x.entry]).Perm m.entries ↔ m.labels.Perm (x :: l.labels) := by
  have hentries : l.entries ++ [x.entry] = (l.labels ++ [x]).map Label.entry := by
    rw [List.map_append]
    rfl
  rw [hentries, entries, List.map_perm_map_iff Label.entry_injective, List.perm_comm]
  exact ⟨fun h => h.trans (List.perm_append_singleton x l.labels),
    fun h => h.trans (List.perm_append_singleton x l.labels).symm⟩

/-- The name of a label that comes on top is new. -/
theorem name_notMem_names (h : m.labels.Perm (x :: l.labels)) : x.name ∉ l.names := by
  have hdistinct := (h.pairwise_iff fun {_ _} hne => Ne.symm hne).1 m.pairwise_exposedName
  intro hname
  obtain ⟨y, hy, hyx⟩ := List.mem_map.1 hname
  exact (List.pairwise_cons.1 hdistinct).1 y hy (congrArg Naming.exposed hyx.symm)

/-- **Which label set has one more label**: the one that has it besides the labels that were there before. -/
theorem addLabel_eq_ok_iff : l.addLabel x = .ok m ↔ m.labels.Perm (x :: l.labels) := by
  rw [addLabel_eq]
  constructor
  · intro h
    split at h
    · cases h
    · obtain ⟨-, hperm⟩ := ofPairs_eq_ok_iff.1 h
      rw [zip_names_values_concat] at hperm
      exact perm_entries_concat_iff.1 hperm
  · intro h
    rw [if_neg (name_notMem_names h), ofPairs_eq_ok_iff, zip_names_values_concat]
    exact ⟨by simp [Labels.names, Labels.values], perm_entries_concat_iff.2 h⟩

/-- There is a label set of labels if their names are legal and no two are exposed alike. -/
theorem exists_labels_perm_iff :
    (∃ m : Labels, m.labels.Perm xs) ↔
      (∀ x ∈ xs, LabelName.problem? x.name = none) ∧ xs.Pairwise fun x y => x.exposedName ≠ y.exposedName := by
  simp only [← exists_ofLabels_iff, ofLabels_eq_ok_iff, List.perm_comm]

/-- **When a label can be added**: if its name is legal and no label of the set is exposed like it. -/
theorem exists_addLabel_iff :
    (∃ m, l.addLabel x = .ok m) ↔
      LabelName.problem? x.name = none ∧ ∀ y ∈ l.labels, y.exposedName ≠ x.exposedName := by
  simp only [addLabel_eq_ok_iff, exists_labels_perm_iff, List.forall_mem_cons, List.pairwise_cons]
  constructor
  · rintro ⟨⟨hlegal, -⟩, hnew, -⟩
    exact ⟨hlegal, fun y hy => Ne.symm (hnew y hy)⟩
  · rintro ⟨hlegal, hnew⟩
    exact ⟨⟨hlegal, l.legal⟩, fun y hy => Ne.symm (hnew y hy), l.pairwise_exposedName⟩

/-- **Why a label cannot be added**: it is invalid, whatever is handed over for its name and its value. -/
theorem category_of_add_eq_error {name value : Datum} (h : l.add name value = .error e) : e.category = .invalid := by
  unfold add at h
  split at h
  · cases h
    rfl
  · exact category_of_ofPairs_eq_error h

/-! ## All labels at once -/

/-- **A label set that is made of labels at once**: of their names and values, of an alternating list, and of a
dictionary. -/
structure MadeOf (m : Labels) (xs : List Label) : Prop where
  pairs : ofPairs (xs.map fun x => .text x.name) (xs.map fun x => .text x.value) = .ok m
  flat : ofFlat (xs.flatMap fun x => [.text x.name, .text x.value]) = .ok m
  dictionary : ofDatum (.dict (xs.map Label.entry)) = .ok m

theorem ofFlat_flatMap (xs : List Label) :
    ofFlat (xs.flatMap fun x => [.text x.name, .text x.value]) =
      ofPairs (xs.map fun x => .text x.name) (xs.map fun x => .text x.value) := by
  have heven : (xs.flatMap fun x => [Datum.text x.name, .text x.value]).length % 2 = 0 := by
    simp [List.length_flatMap]
  rw [ofFlat, if_pos heven, alternateNames_flatMap, alternateValues_flatMap]

theorem ofDatum_entries (xs : List Label) :
    ofDatum (.dict (xs.map Label.entry)) =
      ofPairs (xs.map fun x => .text x.name) (xs.map fun x => .text x.value) := by
  cases xs with
  | nil => exact (ofPairs_names_values empty).symm
  | cons x xs =>
    show ofPairs (((x :: xs).map Label.entry).map Prod.fst) (((x :: xs).map Label.entry).map Prod.snd) = _
    rw [List.map_map, List.map_map]
    rfl

/-- **Which label set is made of labels at once**: the one that has them, whatever their order and their form. -/
theorem madeOf_iff_perm : m.MadeOf xs ↔ xs.Perm m.labels := by
  have hpairs : ofPairs (xs.map fun x => .text x.name) (xs.map fun x => .text x.value) = .ok m ↔
      xs.Perm m.labels := by
    have hzip : ((xs.map fun x => Datum.text x.name).zip (xs.map fun x => Datum.text x.value)) =
        xs.map Label.entry := by
      rw [List.zip_map']
      rfl
    rw [ofPairs_eq_ok_iff, hzip, entries, List.map_perm_map_iff Label.entry_injective,
      List.length_map, List.length_map, and_iff_right rfl]
  constructor
  · intro h
    exact hpairs.1 h.pairs
  · intro h
    have hmade := hpairs.2 h
    exact ⟨hmade, (ofFlat_flatMap xs).trans hmade, (ofDatum_entries xs).trans hmade⟩

/-- A label is added by uniting the set with the set of this label alone. -/
theorem exists_merge_of_addLabel (h : l.addLabel x = .ok m) :
    ∃ single : Labels, ofFlat [.text x.name, .text x.value] = .ok single ∧ l.merge single = .ok m := by
  have hperm := addLabel_eq_ok_iff.1 h
  have hlegal := m.legal x (hperm.mem_iff.2 List.mem_cons_self)
  obtain ⟨single, hsingle⟩ : ∃ single : Labels, single.labels.Perm [x] := by
    rw [exists_labels_perm_iff]
    exact ⟨List.forall_mem_singleton.2 hlegal, List.pairwise_singleton _ _⟩
  refine ⟨single, (madeOf_iff_perm.2 hsingle.symm).flat, merge_eq_ok_iff.2 fun y => ?_⟩
  rw [hperm.mem_iff, hsingle.mem_iff, List.mem_cons, List.mem_singleton, or_comm]

/-! ## One label after the other -/

/-- **Labels added one after the other.** -/
def addAll (l : Labels) (xs : List Label) : Except Error Labels :=
  xs.foldlM addLabel l

/-- **Which label set has one label after the other added**: the one that has them besides the labels that were there
before. -/
theorem addAll_eq_ok_iff : l.addAll xs = .ok m ↔ m.labels.Perm (xs ++ l.labels) := by
  unfold addAll
  -- Induction on the labels that are still to come, for whatever set they are added to.
  induction xs generalizing l with
  | nil =>
    rw [List.foldlM_nil, List.nil_append]
    constructor
    · intro h
      cases h
      exact .refl _
    · intro h
      exact congrArg Except.ok (eq_of_mem_iff fun x => h.symm.mem_iff)
  | cons x xs ih =>
    rw [List.foldlM_cons, bind_eq_ok_iff]
    simp only [addLabel_eq_ok_iff, ih]
    constructor
    · rintro ⟨k, hk, hm⟩
      exact hm.trans ((hk.append_left xs).trans List.perm_middle)
    · intro hm
      have hsublist : (x :: l.labels).Sublist (x :: xs ++ l.labels) :=
        (List.sublist_append_right xs l.labels).cons_cons x
      obtain ⟨k, hk⟩ : ∃ k : Labels, k.labels.Perm (x :: l.labels) := by
        obtain ⟨hlegal, hdistinct⟩ := exists_labels_perm_iff.1 ⟨m, hm⟩
        exact exists_labels_perm_iff.2 ⟨fun y hy => hlegal y (hsublist.subset hy), hdistinct.sublist hsublist⟩
      exact ⟨k, hk, hm.trans ((hk.append_left xs).trans List.perm_middle).symm⟩

/-- The order in which labels are added does not matter. -/
theorem addAll_eq_ok_of_perm (h : l.addAll xs = .ok m) (hperm : ys.Perm xs) : l.addAll ys = .ok m := by
  rw [addAll_eq_ok_iff] at h ⊢
  exact h.trans (hperm.symm.append_right l.labels)

/-- Labels that were added are different from each other and from those that were there before. -/
theorem nodup_of_addAll (h : l.addAll xs = .ok m) : (xs ++ l.labels).Nodup :=
  (addAll_eq_ok_iff.1 h).nodup_iff.1 m.increasing.nodup

/-- **Of labels that are added only matters which ones they are.** -/
theorem addAll_eq_iff (hm : l.addAll xs = .ok m) (hn : l.addAll ys = .ok n) : m = n ↔ ∀ x, x ∈ xs ↔ x ∈ ys := by
  have hxs := (List.nodup_append.1 (nodup_of_addAll hm)).1
  have hys := (List.nodup_append.1 (nodup_of_addAll hn)).1
  rw [addAll_eq_ok_iff] at hm hn
  rw [← List.perm_ext_iff_of_nodup hxs hys, ← List.perm_append_right_iff l.labels]
  constructor
  · rintro rfl
    exact hm.symm.trans hn
  · intro h
    exact eq_of_mem_iff fun x => (hm.trans (h.trans hn.symm)).mem_iff

/-! ## Adding, uniting and making -/

/-- **Adding agrees with uniting and making.** A label can be added exactly if its name is legal and no label of the set
is exposed like it, and is invalid otherwise. What comes out is the union with the set of this label alone, and the set
that is made of all labels at once, whatever their order and their form. Label sets to which one label after the other
was added are equal exactly if the same labels were added, and these can be added in every order. -/
theorem add_agrees_with_merge (l : Labels) (x : Label) :
    ((∃ m, l.add (.text x.name) (.text x.value) = .ok m) ↔
        LabelName.problem? x.name = none ∧ ∀ y ∈ l.labels, y.exposedName ≠ x.exposedName) ∧
      (∀ e, l.add (.text x.name) (.text x.value) = .error e → e.category = .invalid) ∧
      (∀ m, l.add (.text x.name) (.text x.value) = .ok m →
        (∃ single, ofFlat [.text x.name, .text x.value] = .ok single ∧ l.merge single = .ok m) ∧
          ∀ xs : List Label, xs.Perm (x :: l.labels) → m.MadeOf xs) ∧
      (∀ xs ys m n, l.addAll xs = .ok m → l.addAll ys = .ok n → (m = n ↔ ∀ y, y ∈ xs ↔ y ∈ ys)) ∧
      ∀ xs ys m, l.addAll xs = .ok m → ys.Perm xs → l.addAll ys = .ok m := by
  refine ⟨exists_addLabel_iff, fun e h => category_of_add_eq_error h, fun m h => ⟨exists_merge_of_addLabel h, ?_⟩,
    fun xs ys m n hm hn => addAll_eq_iff hm hn, fun xs ys m h hperm => addAll_eq_ok_of_perm h hperm⟩
  intro xs hxs
  exact madeOf_iff_perm.2 (hxs.trans (addLabel_eq_ok_iff.1 h).symm)

def ofHost : Labels :=
  ⟨[⟨"host.name", "a"⟩], by decide, by decide⟩

/-- A zone is added to the labels of a host, in front of or behind a region; another spelling of the name of the host is
invalid. -/
theorem add_zone_ofHost :
    (∃ m, ofHost.add (.text "zone") (.text "1") = .ok m ∧ m.MadeOf [⟨"host.name", "a"⟩, ⟨"zone", "1"⟩]) ∧
      (∃ m, ofHost.addAll [⟨"zone", "1"⟩, ⟨"region", "eu"⟩] = .ok m ∧
        ofHost.addAll [⟨"region", "eu"⟩, ⟨"zone", "1"⟩] = .ok m) ∧
      ∃ e, ofHost.add (.text "host_name") (.text "b") = .error e ∧ e.category = .invalid := by
  obtain ⟨hzone, -, hmade, -, hperm⟩ := add_agrees_with_merge ofHost ⟨"zone", "1"⟩
  obtain ⟨hspelling, hinvalid, -⟩ := add_agrees_with_merge ofHost ⟨"host_name", "b"⟩
  refine ⟨?_, ?_, ?_⟩
  · obtain ⟨m, hm⟩ := hzone.2 (by decide)
    exact ⟨m, hm, (hmade m hm).2 _ (List.Perm.swap _ _ [])⟩
  · obtain ⟨m, hm⟩ : ∃ m : Labels, m.labels.Perm ([⟨"zone", "1"⟩, ⟨"region", "eu"⟩] ++ ofHost.labels) :=
      exists_labels_perm_iff.2 (by decide)
    have hadded := addAll_eq_ok_iff.2 hm
    exact ⟨m, hadded, hperm _ _ m hadded (List.Perm.swap _ _ [])⟩
  · cases hadd : ofHost.add (.text "host_name") (.text "b") with
    | ok m => exact absurd (hspelling.1 ⟨m, hadd⟩) (by decide)
    | error e => exact ⟨e, rfl, hinvalid e hadd⟩

end Labels

end Telemetry
