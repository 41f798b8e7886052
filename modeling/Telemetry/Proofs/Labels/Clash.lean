import Mathlib.Data.List.Nodup
import Telemetry.Proofs.Labels.Union

/-!
# Clashes of label sets

Two label sets that have no union have labels that clash: they are exposed alike, but differ in their names or in their
values. What a failing union reports is the first clash in the order of the exposed names. Both sets have the same first
clash, from whichever side it is looked at; so a union that fails in one order fails in the other one, and for a cause
of the same category.

## Main definitions

* `Labels.clashError`: what is said about two labels that clash
* `Labels.FirstClash`: the first labels of two sets that clash

## Main results

* `Labels.merge_eq_error_iff`: which clash a failing union reports
* `Labels.merge_eq_ok_iff_perm`, `Labels.get?_eq_some_iff_of_merge`: the labels and the values of a union
* `Labels.merge_union_or_clash`: label sets are united, or their first clash is reported
* `Labels.merge_partial_monoid`: uniting is a partial commutative monoid in which each label set is idempotent
-/

namespace Telemetry.Labels

variable {a b c l : Labels} {x y : Label}

/-! ## Clashes -/

/-- **What is said about two labels that clash**: their names differ, or if these are equal, their values. -/
def clashError (x y : Label) : LabelError :=
  if x.name = y.name then .conflict y.name x.value y.value
  else .collision x.name y.name y.exposedName

/-- The cause is a conflict of values only where the names are equal. -/
theorem category_clashError (x y : Label) :
    (Error.label (clashError x y)).category = if x.name = y.name then .labelConflict else .incompatible := by
  unfold clashError
  split <;> rfl

/-- A label cannot join a set that has a label with which it clashes. -/
theorem labelConflict?_eq_some_iff {cause : LabelError} :
    a.labelConflict? y = some cause ↔
      ∃ x ∈ a.labels, x.exposedName = y.exposedName ∧ x ≠ y ∧ cause = clashError x y := by
  unfold labelConflict?
  cases hfind : a.findExposed y.exposedName with
  | none =>
    refine iff_of_false (by simp) ?_
    rintro ⟨x, hx, hexposed, -⟩
    rw [findExposed_eq_some_iff.2 ⟨hx, hexposed⟩] at hfind
    cases hfind
  | some known =>
    obtain ⟨hknown, hexposed⟩ := findExposed_eq_some_iff.1 hfind
    have honly : (∃ x ∈ a.labels, x.exposedName = y.exposedName ∧ x ≠ y ∧ cause = clashError x y) ↔
        known ≠ y ∧ cause = clashError known y := by
      constructor
      · rintro ⟨x, hx, hx', hclash⟩
        rwa [eq_of_exposedName hknown hx (hexposed.trans hx'.symm)]
      · intro hclash
        exact ⟨known, hknown, hexposed, hclash⟩
    rw [honly]
    obtain ⟨name, value⟩ := y
    obtain ⟨knownName, knownValue⟩ := known
    by_cases hname : knownName = name <;> by_cases hvalue : knownValue = value <;>
      simp [clashError, hname, hvalue, @eq_comm _ cause]

/-- **The first clash of two label sets**: a label of each, which are exposed alike and differ, while no labels that
are exposed before them do so. -/
structure FirstClash (a b : Labels) (x y : Label) : Prop where
  left : x ∈ a.labels
  right : y ∈ b.labels
  exposed : x.exposedName = y.exposedName
  differ : x ≠ y
  first : ∀ x' ∈ a.labels, ∀ y' ∈ b.labels, x'.exposedName = y'.exposedName → x' ≠ y' →
    y.exposedName ≤ y'.exposedName

/-- The first clash is the same from both sides. -/
theorem FirstClash.symm (h : FirstClash a b x y) : FirstClash b a y x where
  left := h.right
  right := h.left
  exposed := h.exposed.symm
  differ := h.differ.symm
  first y' hy' x' hx' hexposed hdiffer := by
    rw [h.exposed, ← hexposed]
    exact h.first x' hx' y' hy' hexposed.symm hdiffer.symm

/-- **The conflict of two label sets is their first clash.** -/
theorem conflict?_eq_some_iff {cause : LabelError} :
    conflict? a b = some cause ↔ ∃ x y, FirstClash a b x y ∧ cause = clashError x y := by
  have hnone (y : Label) : a.labelConflict? y = none ↔
      ∀ x ∈ a.labels, x.exposedName = y.exposedName → x = y := labelConflict?_eq_none_iff
  rw [conflict?, List.findSome?_eq_some_iff]
  constructor
  · rintro ⟨front, y, rest, hlabels, hcause, hfront⟩
    obtain ⟨x, hx, hexposed, hdiffer, rfl⟩ := labelConflict?_eq_some_iff.1 hcause
    have hordered := b.pairwise_exposedName_lt
    rw [hlabels] at hordered
    have hrest := (List.pairwise_cons.1 (List.pairwise_append.1 hordered).2.1).1
    refine ⟨x, y, ⟨hx, by simp [hlabels], hexposed, hdiffer, ?_⟩, rfl⟩
    intro x' hx' y' hy' hexposed' hdiffer'
    rw [hlabels] at hy'
    rcases List.mem_append.1 hy' with hy' | hy'
    · exact absurd ((hnone y').1 (hfront y' hy') x' hx' hexposed') hdiffer'
    · rcases List.mem_cons.1 hy' with rfl | hy'
      · exact Std.le_refl _
      · exact Std.le_of_lt (hrest y' hy')
  · rintro ⟨x, y, h, rfl⟩
    obtain ⟨front, rest, hlabels⟩ := List.append_of_mem h.right
    have hordered := b.pairwise_exposedName_lt
    rw [hlabels] at hordered
    refine ⟨front, y, rest, hlabels, ?_, fun y' hy' => (hnone y').2 fun x' hx' hexposed' => ?_⟩
    · exact labelConflict?_eq_some_iff.2 ⟨x, h.left, h.exposed, h.differ, rfl⟩
    · -- A clash in front would come before the first one.
      by_contra hdiffer'
      have hlt := (List.pairwise_append.1 hordered).2.2 y' hy' y List.mem_cons_self
      have hmem : y' ∈ b.labels := by
        rw [hlabels]
        exact List.mem_append_left _ hy'
      exact String.not_lt.2 (h.first x' hx' y' hmem hexposed' hdiffer') hlt

/-- **A union fails with the first clash.** -/
theorem merge_eq_error_iff {e : Error} :
    a.merge b = .error e ↔ ∃ x y, FirstClash a b x y ∧ e = .label (clashError x y) := by
  have hmerge : a.merge b = .error e ↔ ∃ cause, conflict? a b = some cause ∧ e = .label cause := by
    cases hconflict : conflict? a b with
    | some cause =>
      unfold merge
      rw [hconflict]
      simp [eq_comm]
    | none =>
      obtain ⟨c, hc⟩ := exists_merge_iff.2 (conflict?_eq_none_iff.1 hconflict)
      simp [hc]
  rw [hmerge]
  constructor
  · rintro ⟨cause, hcause, rfl⟩
    obtain ⟨x, y, h, rfl⟩ := conflict?_eq_some_iff.1 hcause
    exact ⟨x, y, h, rfl⟩
  · rintro ⟨x, y, h, rfl⟩
    exact ⟨_, conflict?_eq_some_iff.2 ⟨x, y, h, rfl⟩, rfl⟩

/-- Label sets that have no union have labels that clash. -/
theorem exists_merge_eq_error_iff :
    (∃ e, a.merge b = .error e) ↔ ∃ x ∈ a.labels, ∃ y ∈ b.labels,
      x.exposedName = y.exposedName ∧ (x.name ≠ y.name ∨ x.value ≠ y.value) := by
  have hdiffer (x y : Label) : x ≠ y ↔ x.name ≠ y.name ∨ x.value ≠ y.value := by
    obtain ⟨name, value⟩ := x
    obtain ⟨name', value'⟩ := y
    rw [ne_eq, Label.mk.injEq, not_and_or]
  have hfails : (∃ e, a.merge b = .error e) ↔ ¬Compatible a b := by
    rw [← exists_merge_iff]
    cases a.merge b <;> simp
  simp only [hfails, Compatible, ← hdiffer, not_forall, exists_prop]

/-! ## Unions -/

theorem mem_toList_iff {name value : String} : (name, value) ∈ l.toList ↔ ⟨name, value⟩ ∈ l.labels := by
  unfold toList
  constructor
  · intro h
    obtain ⟨label, hlabel, heq⟩ := List.mem_map.1 h
    cases heq
    exact hlabel
  · intro h
    exact List.mem_map.2 ⟨_, h, rfl⟩

theorem nodup_toList (l : Labels) : l.toList.Nodup := by
  refine List.pairwise_map.2 (l.pairwise_exposedName.imp fun {x y} hne heq => hne ?_)
  exact congrArg Naming.exposed (Prod.mk.inj heq).1

/-- **The union of two label sets** has the names and values of both, and those that both have once. -/
theorem merge_eq_ok_iff_perm : a.merge b = .ok c ↔ c.toList.Perm (a.toList ∪ b.toList) := by
  rw [merge_eq_ok_iff, List.perm_ext_iff_of_nodup c.nodup_toList (b.nodup_toList.union a.toList)]
  simp only [List.mem_union_iff]
  constructor
  · rintro h ⟨name, value⟩
    simp only [mem_toList_iff]
    exact h ⟨name, value⟩
  · rintro h ⟨name, value⟩
    have hpair := h (name, value)
    simpa only [mem_toList_iff] using hpair

/-- What is found under a name is the value of the label with the name. -/
theorem get?_eq_some_iff {name value : String} : l.get? name = some value ↔ ⟨name, value⟩ ∈ l.labels := by
  have hkeys : ∀ x ∈ l.labels, ∀ y ∈ l.labels, x.name = y.name → x = y := fun x hx y hy hname =>
    eq_of_exposedName hx hy (congrArg Naming.exposed hname)
  rw [get?, Option.map_eq_some_iff]
  constructor
  · rintro ⟨label, hlabel, rfl⟩
    obtain ⟨hmem, rfl⟩ := (find?_key_eq_some_iff hkeys).1 hlabel
    exact hmem
  · intro h
    exact ⟨⟨name, value⟩, (find?_key_eq_some_iff hkeys).2 ⟨h, rfl⟩, rfl⟩

/-- What is found in a union is what is found in one of the two. -/
theorem get?_eq_some_iff_of_merge (h : a.merge b = .ok c) {name value : String} :
    c.get? name = some value ↔ a.get? name = some value ∨ b.get? name = some value := by
  simp only [get?_eq_some_iff]
  exact merge_eq_ok_iff.1 h ⟨name, value⟩

/-- **Label sets are united, or their first clash is reported.** A union has the names and values of both, and nothing
else. There is none exactly if labels of the two are exposed alike and differ; then the labels that do so first are
reported, as a conflict of values if their names are equal, and as incompatible if not. -/
theorem merge_union_or_clash (a b : Labels) :
    ((∃ e, a.merge b = .error e) ↔ ∃ x ∈ a.labels, ∃ y ∈ b.labels,
        x.exposedName = y.exposedName ∧ (x.name ≠ y.name ∨ x.value ≠ y.value)) ∧
      (∀ e, a.merge b = .error e → ∃ x y, FirstClash a b x y ∧ e = .label (clashError x y) ∧
        e.category = if x.name = y.name then .labelConflict else .incompatible) ∧
      (∀ c, a.merge b = .ok c ↔ c.toList.Perm (a.toList ∪ b.toList)) ∧
      ∀ c, a.merge b = .ok c → ∀ name value,
        c.get? name = some value ↔ a.get? name = some value ∨ b.get? name = some value := by
  refine ⟨exists_merge_eq_error_iff, fun e h => ?_, fun c => merge_eq_ok_iff_perm, fun c h name value => ?_⟩
  · obtain ⟨x, y, hclash, rfl⟩ := merge_eq_error_iff.1 h
    exact ⟨x, y, hclash, rfl, category_clashError x y⟩
  · exact get?_eq_some_iff_of_merge h

def dotted : Labels :=
  ⟨[⟨"a.b", "1"⟩, ⟨"c", "1"⟩], by decide, by decide⟩

/-- The same two labels with an underscore for the dot, and another value of the second. -/
def underscored : Labels :=
  ⟨[⟨"a_b", "1"⟩, ⟨"c", "2"⟩], by decide, by decide⟩

/-- Two names are exposed alike before a name has two values, so that is what is reported. -/
theorem merge_dotted_underscored :
    dotted.merge underscored = .error (.label (.collision "a.b" "a_b" "a_b")) := by
  obtain ⟨hfails, hfirst, -⟩ := merge_union_or_clash dotted underscored
  obtain ⟨e, he⟩ := hfails.2 (by decide)
  obtain ⟨x, y, hclash, hcause, -⟩ := hfirst e he
  have hall : ∀ x ∈ dotted.labels, ∀ y ∈ underscored.labels, x.exposedName = y.exposedName →
      y.exposedName ≤ "a_b" → clashError x y = .collision "a.b" "a_b" "a_b" := by decide
  have hle : y.exposedName ≤ "a_b" :=
    hclash.first ⟨"a.b", "1"⟩ (by decide) ⟨"a_b", "1"⟩ (by decide) (by decide) (by decide)
  rw [he, hcause, hall x hclash.left y hclash.right hclash.exposed hle]

/-! ## The laws -/

/-- Two label sets have the same union in both orders. -/
theorem merge_comm_eq_ok_iff : a.merge b = .ok c ↔ b.merge a = .ok c := by
  rw [merge_eq_ok_iff, merge_eq_ok_iff]
  exact forall_congr' fun x => iff_congr Iff.rfl or_comm

/-- A union that fails in one order fails in the other one, for a cause of the same category. -/
theorem exists_merge_comm_eq_error {e : Error} (h : a.merge b = .error e) :
    ∃ f, b.merge a = .error f ∧ e.category = f.category := by
  obtain ⟨x, y, hclash, rfl⟩ := merge_eq_error_iff.1 h
  refine ⟨.label (clashError y x), merge_eq_error_iff.2 ⟨y, x, hclash.symm, rfl⟩, ?_⟩
  rw [category_clashError, category_clashError]
  exact if_congr eq_comm rfl rfl

/-- **Uniting is a partial commutative monoid in which each label set is idempotent.** Both orders succeed with the same
label set, or fail for causes of the same category; both groupings succeed with the same label set, or fail. -/
theorem merge_partial_monoid (a b c : Labels) :
    ((∃ r, a.merge b = .ok r ∧ b.merge a = .ok r) ∨
        ∃ e f, a.merge b = .error e ∧ b.merge a = .error f ∧ e.category = f.category) ∧
      (∀ r, (a.merge b >>= fun ab => ab.merge c) = .ok r ↔ (b.merge c >>= fun bc => a.merge bc) = .ok r) ∧
      a.merge a = .ok a ∧ a.merge empty = .ok a ∧ empty.merge a = .ok a := by
  refine ⟨?_, fun r => merge_bind_eq_ok_iff, a.merge_self, a.merge_empty_right, a.merge_empty_left⟩
  cases h : a.merge b with
  | ok r => exact .inl ⟨r, rfl, merge_comm_eq_ok_iff.1 h⟩
  | error e =>
    obtain ⟨f, hf, hcategory⟩ := exists_merge_comm_eq_error h
    exact .inr ⟨e, f, rfl, hf, hcategory⟩

end Telemetry.Labels
