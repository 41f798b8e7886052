import Mathlib.Data.List.Perm.Basic

/-!
# Steps that may fail

Two steps one after the other succeed if both do, and so do steps for all elements of a list.

## Main results

* `bind_eq_ok_iff`, `bind_eq_error_iff`: two steps
* `mapM_eq_ok_iff`, `exists_of_mapM_eq_error`: a step for each element
* `exists_forall₂`, `exists_of_mem_left`, `exists_of_mem_right`, `forall₂_map_map`, `forall₂_comp_iff`,
  `forall₂_iff_of_forall₂`, `pairwise_iff_of_forall₂`: lists that are related element by element
-/

namespace Telemetry

variable {α β ε : Type}

theorem exists_eq_ok_of_isOk {x : Except ε α} (h : x.isOk = true) : ∃ a, x = .ok a := by
  cases x with
  | error e => cases h
  | ok a => exact ⟨a, rfl⟩

/-- Two steps succeed if the first does, and the second with its result. -/
theorem bind_eq_ok_iff {x : Except ε α} {f : α → Except ε β} {b : β} :
    (x >>= f) = .ok b ↔ ∃ a, x = .ok a ∧ f a = .ok b := by
  constructor
  · intro h
    cases x with
    | error e => cases h
    | ok a => exact ⟨a, rfl, h⟩
  · rintro ⟨a, rfl, h⟩
    exact h

/-- Two steps fail if the first does, or the second with its result. -/
theorem bind_eq_error_iff {x : Except ε α} {f : α → Except ε β} {e : ε} :
    (x >>= f) = .error e ↔ x = .error e ∨ ∃ a, x = .ok a ∧ f a = .error e := by
  constructor
  · intro h
    cases x with
    | error e' =>
      cases h
      exact .inl rfl
    | ok a => exact .inr ⟨a, rfl, h⟩
  · rintro (rfl | ⟨a, rfl, h⟩)
    · rfl
    · exact h

/-- A step for each element succeeds if all of them do. -/
theorem mapM_eq_ok_iff {f : α → Except ε β} {xs : List α} {ys : List β} :
    xs.mapM f = .ok ys ↔ List.Forall₂ (fun a b => f a = .ok b) xs ys := by
  induction xs generalizing ys with
  | nil =>
    rw [List.mapM_nil, List.forall₂_nil_left_iff]
    exact ⟨fun h => by cases h; rfl, fun h => h ▸ rfl⟩
  | cons a xs ih =>
    rw [List.mapM_cons, bind_eq_ok_iff, List.forall₂_cons_left_iff]
    simp only [bind_eq_ok_iff, ih]
    constructor
    · rintro ⟨b, hb, bs, hbs, h⟩
      cases h
      exact ⟨b, bs, hb, hbs, rfl⟩
    · rintro ⟨b, bs, hb, hbs, rfl⟩
      exact ⟨b, hb, bs, hbs, rfl⟩

/-- If steps for each element fail, one of them does. -/
theorem exists_of_mapM_eq_error {f : α → Except ε β} {xs : List α} {e : ε} (h : xs.mapM f = .error e) :
    ∃ a ∈ xs, f a = .error e := by
  induction xs with
  | nil => cases h
  | cons a xs ih =>
    rw [List.mapM_cons, bind_eq_error_iff] at h
    rcases h with ha | ⟨b, -, h⟩
    · exact ⟨a, List.mem_cons_self, ha⟩
    · rcases bind_eq_error_iff.1 h with hrest | ⟨bs, -, h⟩
      · obtain ⟨a', ha', hfails⟩ := ih hrest
        exact ⟨a', List.mem_cons_of_mem _ ha', hfails⟩
      · cases h

variable {R : α → β → Prop} {xs : List α} {ys : List β}

theorem exists_forall₂ (h : ∀ a ∈ xs, ∃ b, R a b) : ∃ ys, List.Forall₂ R xs ys := by
  induction xs with
  | nil => exact ⟨[], .nil⟩
  | cons a xs ih =>
    obtain ⟨b, hb⟩ := h a List.mem_cons_self
    obtain ⟨ys, hys⟩ := ih fun a ha => h a (List.mem_cons_of_mem _ ha)
    exact ⟨b :: ys, .cons hb hys⟩

theorem exists_of_mem_right (h : List.Forall₂ R xs ys) {b : β} (hb : b ∈ ys) : ∃ a ∈ xs, R a b := by
  induction h with
  | nil => cases hb
  | @cons a b' xs ys hab _ ih =>
    rcases List.mem_cons.1 hb with rfl | hb
    · exact ⟨a, List.mem_cons_self, hab⟩
    · obtain ⟨a', ha', hr⟩ := ih hb
      exact ⟨a', List.mem_cons_of_mem _ ha', hr⟩

theorem exists_of_mem_left (h : List.Forall₂ R xs ys) {a : α} (ha : a ∈ xs) : ∃ b ∈ ys, R a b :=
  exists_of_mem_right h.flip ha

/-- What a list is mapped to in two ways is related if it is so for each element. -/
theorem forall₂_map_map {γ δ : Type} {R : γ → δ → Prop} {f : α → γ} {g : α → δ} (h : ∀ a ∈ xs, R (f a) (g a)) :
    List.Forall₂ R (xs.map f) (xs.map g) := by
  rw [List.forall₂_map_left_iff, List.forall₂_map_right_iff, List.forall₂_same]
  exact h

/-- Lists whose members belong together are pairwise related alike. -/
theorem pairwise_iff_of_forall₂ {P : α → α → Prop} {Q : β → β → Prop} (h : List.Forall₂ R xs ys)
    (hpq : ∀ {a b c d}, R a c → R b d → (P a b ↔ Q c d)) : xs.Pairwise P ↔ ys.Pairwise Q := by
  induction h with
  | nil => simp
  | @cons a c xs ys hac hrest ih =>
    rw [List.pairwise_cons, List.pairwise_cons, ih]
    refine and_congr_left fun _ => ⟨fun hall d hd => ?_, fun hall b hb => ?_⟩
    · obtain ⟨b, hb, hbd⟩ := exists_of_mem_right hrest hd
      exact (hpq hac hbd).1 (hall b hb)
    · obtain ⟨d, hd, hbd⟩ := exists_of_mem_left hrest hb
      exact (hpq hac hbd).2 (hall d hd)

/-- Elements are related in two steps if there is a list between the two. -/
theorem forall₂_comp_iff {γ : Type} {S : β → γ → Prop} {zs : List γ} :
    List.Forall₂ (fun a c => ∃ b, R a b ∧ S b c) xs zs ↔ ∃ ys, List.Forall₂ R xs ys ∧ List.Forall₂ S ys zs := by
  constructor
  · -- What stands between the elements is collected along the list.
    intro h
    induction h with
    | nil => exact ⟨[], .nil, .nil⟩
    | cons hac _ ih =>
      obtain ⟨b, hab, hbc⟩ := hac
      obtain ⟨ys, hxs, hys⟩ := ih
      exact ⟨b :: ys, .cons hab hxs, .cons hbc hys⟩
  · rintro ⟨ys, hxs, hys⟩
    induction hxs generalizing zs with
    | nil =>
      cases hys
      exact .nil
    | cons hab _ ih =>
      cases hys with
      | cons hbc hrest => exact .cons ⟨_, hab, hbc⟩ (ih hrest)

/-- Of lists that are related, one is to a third list as the other is, if this holds of their elements. -/
theorem forall₂_iff_of_forall₂ {γ : Type} {S : β → γ → Prop} {T : α → γ → Prop} {zs : List γ}
    (h : List.Forall₂ R xs ys) (hst : ∀ {a b c}, R a b → (S b c ↔ T a c)) :
    List.Forall₂ S ys zs ↔ List.Forall₂ T xs zs := by
  induction h generalizing zs with
  | nil => rw [List.forall₂_nil_left_iff, List.forall₂_nil_left_iff]
  | cons hab _ ih =>
    rw [List.forall₂_cons_left_iff, List.forall₂_cons_left_iff]
    simp only [hst hab, ih]

end Telemetry
