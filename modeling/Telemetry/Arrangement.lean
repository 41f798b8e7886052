/-!
# Arrangement

Label sets, buckets, quantiles, states, points and collections are kept in an order of their own, so that a
value does not depend on the order in which its parts were given. Elements that the order does not tell
apart keep the order in which they were given; where that is not allowed they are found as neighbours.

## Main definitions

* `arrange`: the elements of a list in order
* `Increasing`: the order of a list without ties
* `firstTie?`: the first two neighbours that the order does not tell apart

## Main results

* `arrange_perm`, `pairwise_arrange`: arranging is a permutation and leads to an ordered list
* `arrange_eq_of_perm`: it does not depend on the order in which elements are given
* `increasing_of_firstTie?`: an ordered list without tied neighbours has no ties at all
-/

namespace Telemetry

variable {α : Type} {cmp : α → α → Ordering} {xs ys : List α}

/-- **The elements of a list in order**; ties keep the order of the list. -/
def arrange (cmp : α → α → Ordering) (xs : List α) : List α :=
  xs.mergeSort fun a b => (cmp a b).isLE

theorem arrange_perm (cmp : α → α → Ordering) (xs : List α) : (arrange cmp xs).Perm xs :=
  List.mergeSort_perm xs _

@[simp] theorem mem_arrange {a : α} : a ∈ arrange cmp xs ↔ a ∈ xs :=
  (arrange_perm cmp xs).mem_iff

theorem pairwise_arrange [Std.TransCmp cmp] (xs : List α) :
    (arrange cmp xs).Pairwise fun a b => (cmp a b).isLE = true := by
  have htrans (a b c : α) : (cmp a b).isLE = true → (cmp b c).isLE = true → (cmp a c).isLE = true :=
    Std.TransCmp.isLE_trans
  refine List.pairwise_mergeSort htrans (fun a b => ?_) xs
  have hswap : cmp a b = (cmp b a).swap := Std.OrientedCmp.eq_swap
  rw [hswap]
  cases cmp b a <;> rfl

theorem arrange_of_pairwise (h : xs.Pairwise fun a b => (cmp a b).isLE = true) :
    arrange cmp xs = xs :=
  List.mergeSort_of_pairwise h

/-- Where only equal elements tie, arranging does not depend on the order in which elements are
given. -/
theorem arrange_eq_of_perm [Std.TransCmp cmp]
    (heq : ∀ a ∈ xs, ∀ b ∈ xs, cmp a b = .eq → a = b) (hperm : xs.Perm ys) :
    arrange cmp xs = arrange cmp ys := by
  refine List.Perm.eq_of_pairwise ?_ (pairwise_arrange xs) (pairwise_arrange ys)
    (((arrange_perm cmp xs).trans hperm).trans (arrange_perm cmp ys).symm)
  intro a b ha hb hab hba
  refine heq a (mem_arrange.1 ha) b (hperm.mem_iff.2 (mem_arrange.1 hb)) ?_
  exact Std.OrientedCmp.isLE_antisymm hab hba

/-! ## Lists without ties -/

/-- **Increasing lists**: each element comes before all that follow it. -/
def Increasing (cmp : α → α → Ordering) (xs : List α) : Prop :=
  xs.Pairwise fun a b => cmp a b = .lt

instance (xs : List α) : Decidable (Increasing cmp xs) :=
  inferInstanceAs (Decidable (xs.Pairwise _))

theorem increasing_nil : Increasing cmp [] := .nil

/-- **The first two neighbours that tie.** -/
def firstTie? (cmp : α → α → Ordering) : List α → Option (α × α)
  | a :: b :: rest => if cmp a b = .eq then some (a, b) else firstTie? cmp (b :: rest)
  | _ => none

theorem Increasing.pairwise_isLE (h : Increasing cmp xs) :
    xs.Pairwise fun a b => (cmp a b).isLE = true :=
  h.imp fun hab => by rw [hab]; rfl

theorem Increasing.arrange_eq (h : Increasing cmp xs) : arrange cmp xs = xs :=
  arrange_of_pairwise h.pairwise_isLE

theorem Increasing.firstTie?_eq_none (h : Increasing cmp xs) : firstTie? cmp xs = none := by
  induction xs with
  | nil => rfl
  | cons a rest ih =>
    cases rest with
    | nil => rfl
    | cons b rest =>
      have hab : cmp a b = .lt := (List.pairwise_cons.1 h).1 b (by simp)
      simp [firstTie?, hab, ih (List.pairwise_cons.1 h).2]

/-- An ordered list without tied neighbours has no ties at all. -/
theorem increasing_of_firstTie? [Std.TransCmp cmp]
    (hordered : xs.Pairwise fun a b => (cmp a b).isLE = true) (htie : firstTie? cmp xs = none) :
    Increasing cmp xs := by
  induction xs with
  | nil => exact .nil
  | cons a rest ih =>
    cases rest with
    | nil => exact List.pairwise_singleton _ a
    | cons b rest =>
      obtain ⟨ha, hrest⟩ := List.pairwise_cons.1 hordered
      by_cases hab : cmp a b = .eq
      · simp [firstTie?, hab] at htie
      · have htie' : firstTie? cmp (b :: rest) = none := by simpa [firstTie?, hab] using htie
        have hinc := ih hrest htie'
        have hlt : cmp a b = .lt := by
          have hle := ha b (by simp)
          revert hle hab
          cases cmp a b <;> simp [Ordering.isLE]
        refine List.pairwise_cons.2 ⟨fun c hc => ?_, hinc⟩
        rcases List.mem_cons.1 hc with rfl | hc
        · exact hlt
        · exact Std.TransCmp.lt_trans hlt ((List.pairwise_cons.1 hinc).1 c hc)

/-- Arranging a list in which no two elements tie leads to an increasing list. -/
theorem increasing_arrange_of_ne [Std.TransCmp cmp] (h : xs.Pairwise fun a b => cmp a b ≠ .eq) :
    Increasing cmp (arrange cmp xs) := by
  have hne : (arrange cmp xs).Pairwise fun a b => cmp a b ≠ .eq := by
    refine ((arrange_perm cmp xs).pairwise_iff fun {a b} hab hba => hab ?_).2 h
    have hswap : cmp a b = (cmp b a).swap := Std.OrientedCmp.eq_swap
    rw [hswap, hba]
    rfl
  refine ((pairwise_arrange xs).and hne).imp fun {a b} hab => ?_
  obtain ⟨hle, hne⟩ := hab
  revert hle hne
  cases cmp a b <;> simp [Ordering.isLE]

/-- Arranging a list whose arrangement has no tied neighbours leads to an increasing list. -/
theorem increasing_arrange [Std.TransCmp cmp] (h : firstTie? cmp (arrange cmp xs) = none) :
    Increasing cmp (arrange cmp xs) :=
  increasing_of_firstTie? (pairwise_arrange xs) h

end Telemetry
