import Mathlib.Data.List.Perm.Basic
import Telemetry.Labels.Order

/-!
# What the order of label sets tells apart

Label sets are compared by the names and values that they are exposed as, while equal label sets have the same names
themselves. Of two label sets of which neither comes before the other, all that is known is that they are exposed alike;
they are equal unless their names differ in dots and underscores. Those that tie stay in the order in which they are
given, so this order is still seen after sorting, wherever two different label sets tie.

## Main definitions

* `ExactlyOne`: one of three propositions holds, and no other
* `Labels.spelledWithDot`, `Labels.spelledWithUnderscore`: two label sets that tie

## Main results

* `filter_arrange`: elements that tie stay in the order in which they are given
* `Labels.toExposedList_eq_iff`: label sets tie exactly if they are exposed alike
* `Labels.exactlyOne_iff`: of which two label sets exactly one comes before the other, or they are equal
* `Labels.sort_eq_of_perm_iff`: which label sets are sorted alike in whatever order they are given
* `Labels.total_up_to_exposure`: all of this together
* `Labels.spellings_not_ordered`: the order is not total
-/

namespace Telemetry

/-! ## Ties -/

section Ties

variable {α : Type} {cmp : α → α → Ordering} [Std.TransCmp cmp]

/-- Elements that tie with one element tie with each other. -/
theorem isLE_of_ties {a b c : α} (hb : cmp a b = .eq) (hc : cmp a c = .eq) : (cmp b c).isLE = true := by
  have hba : cmp b a = .eq := Std.OrientedCmp.eq_symm hb
  rw [Std.TransCmp.eq_trans hba hc]
  rfl

/-- **Elements that tie with an element stay in the order in which they are given.** -/
theorem filter_arrange (a : α) (xs : List α) :
    (arrange cmp xs).filter (cmp a · == .eq) = xs.filter (cmp a · == .eq) := by
  have htrans (x y z : α) : (cmp x y).isLE = true → (cmp y z).isLE = true → (cmp x z).isLE = true :=
    Std.TransCmp.isLE_trans
  have htotal (x y : α) : ((cmp x y).isLE || (cmp y x).isLE) = true := by
    have hswap : cmp y x = (cmp x y).swap := Std.OrientedCmp.eq_swap
    rw [hswap]
    cases cmp x y <;> rfl
  have htied : (xs.filter (cmp a · == .eq)).Pairwise fun x y => (cmp x y).isLE = true := by
    refine List.pairwise_of_forall_mem_list fun x hx y hy => ?_
    exact isLE_of_ties (beq_iff_eq.1 (List.mem_filter.1 hx).2) (beq_iff_eq.1 (List.mem_filter.1 hy).2)
  have hsublist : (xs.filter (cmp a · == .eq)).Sublist (arrange cmp xs) :=
    List.sublist_mergeSort htrans htotal htied List.filter_sublist
  -- The ties of the arrangement contain those of the list, and are no more than these.
  have hfilter := hsublist.filter (cmp a · == .eq)
  rw [List.filter_filter] at hfilter
  simp only [Bool.and_self] at hfilter
  exact (hfilter.eq_of_length ((arrange_perm cmp xs).filter _).length_eq.symm).symm

end Ties

/-- **Exactly one of three.** -/
def ExactlyOne (p q r : Prop) : Prop :=
  p ∧ ¬q ∧ ¬r ∨ ¬p ∧ q ∧ ¬r ∨ ¬p ∧ ¬q ∧ r

namespace Labels

variable {a b c l m : Labels} {sets others : List Labels}

/-! ## Keys -/

theorem key_eq_flatMap (l : Labels) : l.key = l.toExposedList.flatMap fun entry => [entry.1, entry.2] := by
  rw [key, toExposedList, List.flatMap_map]

/-- Names and values, alternating, say what the entries are. -/
theorem flatMap_entry_inj {entries others : List (String × String)}
    (h : (entries.flatMap fun entry => [entry.1, entry.2]) =
      others.flatMap fun entry => [entry.1, entry.2]) : entries = others := by
  induction entries generalizing others with
  | nil =>
    cases others with
    | nil => rfl
    | cons other others => cases h
  | cons entry entries ih =>
    cases others with
    | nil => cases h
    | cons other others =>
      simp only [List.flatMap_cons, List.cons_append, List.nil_append, List.cons.injEq] at h
      obtain ⟨hname, hvalue, h⟩ := h
      rw [Prod.ext hname hvalue, ih h]

theorem key_eq_iff_order : l.key = m.key ↔ order l m = .eq :=
  show l.key = m.key ↔ compare l.key m.key = .eq from Std.LawfulEqCmp.compare_eq_iff_eq.symm

/-- **Label sets tie exactly if they are exposed alike**, name by name and value by value. -/
theorem toExposedList_eq_iff : l.toExposedList = m.toExposedList ↔ order l m = .eq := by
  rw [← key_eq_iff_order, key_eq_flatMap, key_eq_flatMap]
  constructor
  · intro h
    rw [h]
  · intro h
    exact flatMap_entry_inj h

/-! ## Trichotomy -/

/-- **Of two label sets exactly one comes before the other, or they are equal**, exactly if they are not different label
sets that are exposed alike. -/
theorem exactlyOne_iff (a b : Labels) :
    ExactlyOne (a.lt b = true) (a = b) (b.lt a = true) ↔ (a.toExposedList = b.toExposedList → a = b) := by
  have hswap : order b a = (order a b).swap := Std.OrientedCmp.eq_swap
  have hself : order b b = .eq := Std.ReflCmp.compare_self
  unfold ExactlyOne lt
  rw [toExposedList_eq_iff, hswap]
  cases horder : order a b with
  | eq => simp
  | lt =>
    have hne : a ≠ b := by
      rintro rfl
      rw [horder] at hself
      cases hself
    simp [hne]
  | gt =>
    have hne : a ≠ b := by
      rintro rfl
      rw [horder] at hself
      cases hself
    simp [hne]

/-! ## Sorting -/

/-- Of label sets that tie, the one that is given first is the first after sorting. -/
theorem eq_of_sort_cons_eq (htie : order a b = .eq) (h : sort (a :: sets) = sort (b :: others)) : a = b := by
  have hself : (order a a == .eq) = true := beq_iff_eq.2 Std.ReflCmp.compare_self
  have hfirst := congrArg (List.filter fun l => order a l == .eq) h
  unfold sort at hfirst
  rw [filter_arrange, filter_arrange, List.filter_cons, List.filter_cons, if_pos hself,
    if_pos (beq_iff_eq.2 htie)] at hfirst
  exact (List.cons.inj hfirst).1

/-- Sorting gives the same exposed label sets, in whatever order they are given. -/
theorem map_toExposedList_sort (h : others.Perm sets) :
    (sort others).map toExposedList = (sort sets).map toExposedList := by
  let before (entries more : List (String × String)) : Prop :=
    (compare (entries.flatMap fun entry => [entry.1, entry.2])
      (more.flatMap fun entry => [entry.1, entry.2])).isLE = true
  have hordered (given : List Labels) : ((sort given).map toExposedList).Pairwise before := by
    refine List.pairwise_map.2 ((pairwise_arrange given).imp fun {l m} hle => ?_)
    rw [order, compareOn, key_eq_flatMap, key_eq_flatMap] at hle
    exact hle
  have hperm : (sort others).Perm (sort sets) :=
    (arrange_perm order others).trans (h.trans (arrange_perm order sets).symm)
  refine List.Perm.eq_of_pairwise (fun entries more _ _ hle hge => ?_) (hordered others) (hordered sets)
    (hperm.map toExposedList)
  exact flatMap_entry_inj (Std.LawfulEqCmp.eq_of_compare (Std.OrientedCmp.isLE_antisymm hle hge))

/-- **Which label sets are sorted alike in whatever order they are given**: those of which no two different ones are
exposed alike. -/
theorem sort_eq_of_perm_iff :
    (∀ others, others.Perm sets → sort others = sort sets) ↔
      ∀ a ∈ sets, ∀ b ∈ sets, a.toExposedList = b.toExposedList → a = b := by
  constructor
  · intro h a ha b hb hexposed
    have hsorted : sort (a :: sets.erase a) = sort (b :: sets.erase b) :=
      (h _ (List.perm_cons_erase ha).symm).trans (h _ (List.perm_cons_erase hb).symm).symm
    exact eq_of_sort_cons_eq (toExposedList_eq_iff.1 hexposed) hsorted
  · intro h others hperm
    refine arrange_eq_of_perm (fun a ha b hb htie => ?_) hperm
    exact h a (hperm.mem_iff.1 ha) b (hperm.mem_iff.1 hb) (toExposedList_eq_iff.2 htie)

/-- **The order of label sets is total up to exposure.** It is transitive. Of two label sets exactly one comes before the
other, or they are equal, exactly if they are not different label sets that are exposed alike. Label sets are sorted alike
in whatever order they are given exactly if no two different ones of them are exposed alike; what they are exposed as
always is. -/
theorem total_up_to_exposure (a b c : Labels) (sets : List Labels) :
    (ExactlyOne (a.lt b = true) (a = b) (b.lt a = true) ↔ (a.toExposedList = b.toExposedList → a = b)) ∧
      (a.lt b = true → b.lt c = true → a.lt c = true) ∧
      ((∀ others, others.Perm sets → sort others = sort sets) ↔
        ∀ d ∈ sets, ∀ e ∈ sets, d.toExposedList = e.toExposedList → d = e) ∧
      ∀ others, others.Perm sets → (sort others).map toExposedList = (sort sets).map toExposedList := by
  refine ⟨exactlyOne_iff a b, fun hab hbc => lt_trans hab hbc, sort_eq_of_perm_iff, ?_⟩
  intro others h
  exact map_toExposedList_sort h

def spelledWithDot : Labels :=
  ⟨[⟨"a.b", "1"⟩], by decide, by decide⟩

/-- The same label with an underscore for the dot. -/
def spelledWithUnderscore : Labels :=
  ⟨[⟨"a_b", "1"⟩], by decide, by decide⟩

theorem toExposedList_spellings : spelledWithDot.toExposedList = spelledWithUnderscore.toExposedList := by
  decide

theorem spellings_ne : spelledWithDot ≠ spelledWithUnderscore := by
  decide

/-- The label set without labels comes before both spellings, which are sorted alike with it, but not with each other. -/
theorem sort_empty_spelling :
    (∀ others, others.Perm [spelledWithDot, empty] → sort others = sort [spelledWithDot, empty]) ∧
      ¬∀ others, others.Perm [spelledWithDot, spelledWithUnderscore] →
        sort others = sort [spelledWithDot, spelledWithUnderscore] := by
  have hsorted := fun sets => (total_up_to_exposure spelledWithDot spelledWithUnderscore empty sets).2.2.1
  constructor
  · exact (hsorted _).2 (by decide)
  · intro h
    exact spellings_ne ((hsorted _).1 h _ (by simp) _ (by simp) toExposedList_spellings)

/-- **The order of label sets is not total.** Of the two spellings neither comes before the other, although they are
different; and sorting them gives two sequences, according to which one is given first. -/
theorem spellings_not_ordered :
    ¬ExactlyOne (spelledWithDot.lt spelledWithUnderscore = true) (spelledWithDot = spelledWithUnderscore)
        (spelledWithUnderscore.lt spelledWithDot = true) ∧
      sort [spelledWithDot, spelledWithUnderscore] ≠ sort [spelledWithUnderscore, spelledWithDot] := by
  constructor
  · intro h
    exact spellings_ne ((exactlyOne_iff _ _).1 h toExposedList_spellings)
  · intro h
    exact spellings_ne (eq_of_sort_cons_eq (toExposedList_eq_iff.1 toExposedList_spellings) h)

end Labels

end Telemetry
