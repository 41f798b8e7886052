import Mathlib.Data.List.Nodup
import Telemetry.Arrangement

/-!
# Increasing lists

What is kept in an order without ties is one increasing list, whatever the order in which its elements are given. Ties
are looked for between neighbours only, which is enough once the elements are arranged.

## Main results

* `Increasing.eq_of_mem_iff`: increasing lists with the same elements are equal
* `Increasing.arrange_eq_of_perm`: the elements of an increasing list are arranged into it
* `firstTie?_arrange_eq_none_iff`: arranged elements have no tied neighbours if no two of them tie
-/

namespace Telemetry

variable {α : Type} {cmp : α → α → Ordering} [Std.TransCmp cmp] {xs ys : List α}

theorem Increasing.nodup (h : Increasing cmp xs) : xs.Nodup := by
  refine h.imp fun {a b} hlt heq => ?_
  have hself : cmp b b = .eq := Std.ReflCmp.compare_self
  rw [heq, hself] at hlt
  cases hlt

/-- Increasing lists with the same elements are equal. -/
theorem Increasing.eq_of_mem_iff (hxs : Increasing cmp xs) (hys : Increasing cmp ys)
    (h : ∀ a, a ∈ xs ↔ a ∈ ys) : xs = ys := by
  refine List.Perm.eq_of_pairwise (fun a b _ _ hab hba => ?_) hxs hys
    ((List.perm_ext_iff_of_nodup hxs.nodup hys.nodup).2 h)
  have hswap : cmp b a = (cmp a b).swap := Std.OrientedCmp.eq_swap
  rw [hab, hba] at hswap
  cases hswap

/-- Whether elements tie does not depend on their order. -/
theorem pairwise_ne_iff_of_perm (h : xs.Perm ys) :
    (xs.Pairwise fun a b => cmp a b ≠ .eq) ↔ ys.Pairwise fun a b => cmp a b ≠ .eq := by
  refine h.pairwise_iff fun {a b} hab hba => hab ?_
  have hswap : cmp a b = (cmp b a).swap := Std.OrientedCmp.eq_swap
  rw [hswap, hba]
  rfl

omit [Std.TransCmp cmp] in
/-- No two elements of an increasing list tie. -/
theorem Increasing.pairwise_ne (h : Increasing cmp xs) : xs.Pairwise fun a b => cmp a b ≠ .eq :=
  h.imp fun {a b} hlt heq => by rw [hlt] at heq; cases heq

/-- **The elements of an increasing list, in whatever order they are given, are arranged into it.** -/
theorem Increasing.arrange_eq_of_perm (h : Increasing cmp ys) (hperm : xs.Perm ys) : arrange cmp xs = ys := by
  have hxs := increasing_arrange_of_ne ((pairwise_ne_iff_of_perm hperm).2 h.pairwise_ne)
  exact hxs.eq_of_mem_iff h fun a => ((arrange_perm cmp xs).trans hperm).mem_iff

/-- **Arranged elements have no tied neighbours** if and only if no two of them tie. -/
theorem firstTie?_arrange_eq_none_iff :
    firstTie? cmp (arrange cmp xs) = none ↔ xs.Pairwise fun a b => cmp a b ≠ .eq := by
  constructor
  · intro h
    exact (pairwise_ne_iff_of_perm (arrange_perm cmp xs)).1 (increasing_arrange h).pairwise_ne
  · intro h
    exact (increasing_arrange_of_ne h).firstTie?_eq_none

end Telemetry
