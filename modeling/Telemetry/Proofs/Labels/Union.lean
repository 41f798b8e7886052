import Mathlib.Data.List.Nodup
import Telemetry.Dictionary
import Telemetry.Labels.Union
import Telemetry.Proofs.Arrangement
import Telemetry.Proofs.Steps

/-!
# Unions of label sets

A label set is determined by its labels. So the union of two label sets is the one that has the labels of both and
no others, if there is such a label set: labels of the two that are exposed alike have to be equal. In this view
neither the order in which label sets are united nor how they are grouped matters, and a failing union always is a
conflict between two labels.

## Main definitions

* `Labels.Compatible`: label sets that can be united
* `Labels.SameBeyond`: label sets that differ at most in labels of a third one

## Main results

* `Labels.eq_of_mem_iff`: label sets with the same labels are equal
* `Labels.ofLabels_eq_ok_iff`, `Labels.exists_ofLabels_iff`: which label set is made of labels, and when
* `Labels.merge_eq_ok_iff`, `Labels.exists_merge_iff`: which label set is the union of two, and when there is one
* `Labels.merge_bind_eq_ok_iff`: unions may be grouped in both ways
* `Labels.incompatible_of_merge_eq_error`: a union that fails is incompatible
* `Labels.merge_eq_merge_iff`: when two label sets have the same union with a third
-/

namespace Telemetry

namespace Labels

variable {a b c l m r : Labels} {x y : Label}

/-! ## Labels of a set -/

/-- Labels of one set that are exposed alike are equal. -/
theorem eq_of_exposedName (hx : x ∈ l.labels) (hy : y ∈ l.labels) (h : x.exposedName = y.exposedName) :
    x = y :=
  List.inj_on_of_nodup_map (List.pairwise_map.2 l.pairwise_exposedName) hx hy h

/-- Labels of a set come in the order of their exposed names. -/
theorem pairwise_exposedName_lt (l : Labels) :
    l.labels.Pairwise fun x y => x.exposedName < y.exposedName :=
  l.increasing.imp fun {_ _} hlt => compareOfLessAndEq_eq_lt.1 hlt

/-- **Label sets with the same labels are equal.** -/
theorem eq_of_mem_iff (h : ∀ x, x ∈ l.labels ↔ x ∈ m.labels) : l = m :=
  Labels.ext (l.increasing.eq_of_mem_iff m.increasing h)

/-! ## Construction -/

/-- **Which label set is made of labels**: the one that has them. -/
theorem ofLabels_eq_ok_iff {labels : List Label} : ofLabels labels = .ok l ↔ labels.Perm l.labels := by
  constructor
  · intro h
    unfold ofLabels at h
    split at h
    · cases h
    · split at h
      · cases h
      · cases h
        exact (arrange_perm Label.order labels).symm
  · intro hperm
    have harrange := l.increasing.arrange_eq_of_perm hperm
    unfold ofLabels
    split
    · next e he =>
      rw [illegal?_eq_none_iff.2 fun x hx => l.legal x (hperm.mem_iff.1 hx)] at he
      cases he
    · split
      · next first second htie =>
        rw [harrange, l.increasing.firstTie?_eq_none] at htie
        cases htie
      · exact congrArg Except.ok (Labels.ext harrange)

/-- A label set is made of labels if their names are legal and no two are exposed alike. -/
theorem exists_ofLabels_iff {labels : List Label} :
    (∃ l, ofLabels labels = .ok l) ↔
      (∀ x ∈ labels, LabelName.problem? x.name = none) ∧
        labels.Pairwise fun x y => x.exposedName ≠ y.exposedName := by
  simp only [ofLabels_eq_ok_iff]
  constructor
  · rintro ⟨l, hperm⟩
    exact ⟨fun x hx => l.legal x (hperm.mem_iff.1 hx),
      (hperm.pairwise_iff fun h => Ne.symm h).2 l.pairwise_exposedName⟩
  · rintro ⟨hlegal, hdistinct⟩
    have hne : labels.Pairwise fun x y => Label.order x y ≠ .eq :=
      hdistinct.imp fun h htie => h (Label.order_eq_iff.1 htie)
    exact ⟨⟨arrange Label.order labels, fun x hx => hlegal x (mem_arrange.1 hx), increasing_arrange_of_ne hne⟩,
      (arrange_perm Label.order labels).symm⟩

/-! ## Union -/

/-- **Label sets that can be united**: labels that are exposed alike are equal. -/
def Compatible (a b : Labels) : Prop :=
  ∀ x ∈ a.labels, ∀ y ∈ b.labels, x.exposedName = y.exposedName → x = y

instance (a b : Labels) : Decidable (Compatible a b) :=
  inferInstanceAs (Decidable (∀ x ∈ a.labels, ∀ y ∈ b.labels, x.exposedName = y.exposedName → x = y))

theorem findExposed_eq_some_iff {name : String} :
    a.findExposed name = some x ↔ x ∈ a.labels ∧ x.exposedName = name :=
  find?_key_eq_some_iff fun _ hx _ hy => eq_of_exposedName hx hy

/-- A label can join a set in which all labels that are exposed like it are equal to it. -/
theorem labelConflict?_eq_none_iff :
    a.labelConflict? y = none ↔ ∀ x ∈ a.labels, x.exposedName = y.exposedName → x = y := by
  unfold labelConflict?
  cases hfind : a.findExposed y.exposedName with
  | none =>
    refine iff_of_true rfl fun x hx hexposed => ?_
    rw [findExposed_eq_some_iff.2 ⟨hx, hexposed⟩] at hfind
    cases hfind
  | some known =>
    obtain ⟨hknown, hexposed⟩ := findExposed_eq_some_iff.1 hfind
    have hall : (∀ x ∈ a.labels, x.exposedName = y.exposedName → x = y) ↔ known = y := by
      constructor
      · intro h
        exact h known hknown hexposed
      · rintro rfl x hx hx'
        exact eq_of_exposedName hx hknown hx'
    rw [hall]
    obtain ⟨name, value⟩ := y
    obtain ⟨knownName, knownValue⟩ := known
    by_cases hname : knownName = name <;> by_cases hvalue : knownValue = value <;> simp [hname, hvalue]

/-- Nothing keeps two label sets from being united exactly if they are compatible. -/
theorem conflict?_eq_none_iff : conflict? a b = none ↔ Compatible a b := by
  simp only [conflict?, List.findSome?_eq_none_iff, labelConflict?_eq_none_iff, Compatible]
  exact ⟨fun h x hx y hy => h y hy x hx, fun h y hy x hx => h x hx y hy⟩

theorem compatible_of_subset (ha : a.labels ⊆ r.labels) (hb : b.labels ⊆ r.labels) : Compatible a b :=
  fun _ hx _ hy => eq_of_exposedName (ha hx) (hb hy)

def joined (a b : Labels) : List Label :=
  a.labels ++ b.labels.filter fun y => (a.findExposed y.exposedName).isNone

theorem merge_of_compatible (h : Compatible a b) : a.merge b = ofLabels (joined a b) := by
  unfold merge
  rw [conflict?_eq_none_iff.2 h]
  rfl

/-- A label of the second set is new to the first one exactly if no label there is exposed like it. -/
theorem mem_filter_isNone_iff :
    (y ∈ b.labels.filter fun y => (a.findExposed y.exposedName).isNone) ↔
      y ∈ b.labels ∧ ∀ x ∈ a.labels, x.exposedName ≠ y.exposedName := by
  rw [List.mem_filter, Option.isNone_iff_eq_none, Option.eq_none_iff_forall_ne_some]
  simp only [ne_eq, findExposed_eq_some_iff, not_and]

/-- If two label sets are compatible, the labels of both make their union. -/
theorem mem_joined_iff (h : Compatible a b) : x ∈ joined a b ↔ x ∈ a.labels ∨ x ∈ b.labels := by
  rw [joined, List.mem_append, mem_filter_isNone_iff]
  constructor
  · rintro (hx | ⟨hx, -⟩)
    · exact .inl hx
    · exact .inr hx
  · rintro (hx | hx)
    · exact .inl hx
    · by_cases hnew : ∀ y ∈ a.labels, y.exposedName ≠ x.exposedName
      · exact .inr ⟨hx, hnew⟩
      · -- A label of the first set that is exposed like this one is this one.
        simp only [ne_eq, not_forall, not_not] at hnew
        obtain ⟨y, hy, hexposed⟩ := hnew
        rw [← h y hy x hx hexposed]
        exact .inl hy

theorem nodup_joined (a b : Labels) : (joined a b).Pairwise fun x y => x.exposedName ≠ y.exposedName := by
  refine List.pairwise_append.2 ⟨a.pairwise_exposedName, b.pairwise_exposedName.filter _, fun x hx y hy => ?_⟩
  exact (mem_filter_isNone_iff.1 hy).2 x hx

/-- **When there is a union**: exactly if labels that are exposed alike are equal. -/
theorem exists_merge_iff : (∃ c, a.merge b = .ok c) ↔ Compatible a b := by
  constructor
  · rintro ⟨c, h⟩
    unfold merge at h
    split at h
    · cases h
    · next hconflict => exact conflict?_eq_none_iff.1 hconflict
  · intro h
    rw [merge_of_compatible h, exists_ofLabels_iff]
    refine ⟨fun x hx => ?_, nodup_joined a b⟩
    rcases (mem_joined_iff h).1 hx with hx | hx
    · exact a.legal x hx
    · exact b.legal x hx

/-- **Which label set is the union of two**: the one that has the labels of both and no others. -/
theorem merge_eq_ok_iff : a.merge b = .ok c ↔ ∀ x, x ∈ c.labels ↔ x ∈ a.labels ∨ x ∈ b.labels := by
  constructor
  · intro h x
    have hcompatible := exists_merge_iff.1 ⟨c, h⟩
    rw [merge_of_compatible hcompatible, ofLabels_eq_ok_iff] at h
    rw [← h.mem_iff, mem_joined_iff hcompatible]
  · intro h
    have hcompatible : Compatible a b :=
      compatible_of_subset (fun x hx => (h x).2 (.inl hx)) fun x hx => (h x).2 (.inr hx)
    obtain ⟨d, hd⟩ := exists_merge_iff.2 hcompatible
    rw [merge_of_compatible hcompatible] at hd ⊢
    rw [hd]
    refine congrArg Except.ok (eq_of_mem_iff fun x => ?_)
    rw [← (ofLabels_eq_ok_iff.1 hd).mem_iff, mem_joined_iff hcompatible, h x]

/-- A label set is united with all of its labels, or some of them, to itself. -/
theorem merge_of_subset (h : a.labels ⊆ b.labels) : a.merge b = .ok b :=
  merge_eq_ok_iff.2 fun _ => (or_iff_right_of_imp fun hx => h hx).symm

theorem merge_self (a : Labels) : a.merge a = .ok a :=
  merge_of_subset fun _ => id

/-- **Unions may be grouped in both ways**: both succeed or fail together, with the same label set. -/
theorem merge_bind_eq_ok_iff :
    (a.merge b >>= fun ab => ab.merge c) = .ok r ↔ (b.merge c >>= fun bc => a.merge bc) = .ok r := by
  simp only [bind_eq_ok_iff, merge_eq_ok_iff]
  constructor
  · rintro ⟨ab, hab, hr⟩
    obtain ⟨bc, hbc⟩ : ∃ bc, b.merge c = .ok bc :=
      exists_merge_iff.2 (compatible_of_subset (fun x hx => (hr x).2 (.inl ((hab x).2 (.inr hx))))
        fun x hx => (hr x).2 (.inr hx))
    rw [merge_eq_ok_iff] at hbc
    refine ⟨bc, hbc, fun x => ?_⟩
    rw [hr, hab, hbc, or_assoc]
  · rintro ⟨bc, hbc, hr⟩
    obtain ⟨ab, hab⟩ : ∃ ab, a.merge b = .ok ab :=
      exists_merge_iff.2 (compatible_of_subset (fun x hx => (hr x).2 (.inl hx))
        fun x hx => (hr x).2 (.inr ((hbc x).2 (.inl hx))))
    rw [merge_eq_ok_iff] at hab
    refine ⟨ab, hab, fun x => ?_⟩
    rw [hr, hab, hbc, or_assoc]

/-- **A union that fails is incompatible**: two names are exposed alike, or a name has two values. -/
theorem incompatible_of_merge_eq_error {e : Error} (h : a.merge b = .error e) :
    .incompatible ∈ e.category.lineage := by
  cases hconflict : conflict? a b with
  | none =>
    obtain ⟨c, hc⟩ := exists_merge_iff.2 (conflict?_eq_none_iff.1 hconflict)
    rw [hc] at h
    cases h
  | some cause =>
    have he : e = .label cause := by
      unfold merge at h
      rw [hconflict] at h
      cases h
      rfl
    obtain ⟨y, -, hy⟩ := List.exists_of_findSome?_eq_some hconflict
    subst he
    unfold labelConflict? at hy
    split at hy
    · cases hy
    · split at hy
      · cases hy
        exact List.mem_cons_self
      · split at hy
        · -- A conflict of values is a special case.
          cases hy
          exact List.mem_cons_of_mem _ List.mem_cons_self
        · cases hy

/-! ## What a third set covers -/

/-- **Label sets that differ at most in labels of a third one.** -/
def SameBeyond (extra l m : Labels) : Prop :=
  ∀ x, x ∉ extra.labels → (x ∈ l.labels ↔ x ∈ m.labels)

/-- **When two label sets have the same union with a third**: exactly if they differ at most in labels of it. -/
theorem merge_eq_merge_iff {extra l' m' : Labels} (hl : l.merge extra = .ok l') (hm : m.merge extra = .ok m') :
    l' = m' ↔ SameBeyond extra l m := by
  rw [merge_eq_ok_iff] at hl hm
  constructor
  · rintro rfl x hx
    have hboth := (hl x).symm.trans (hm x)
    simpa [hx] using hboth
  · intro hsame
    refine eq_of_mem_iff fun x => ?_
    rw [hl, hm]
    by_cases hx : x ∈ extra.labels
    · simp [hx]
    · rw [hsame x hx]

end Labels

end Telemetry
