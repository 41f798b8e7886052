import Telemetry.Proofs.Exporter.Duplicates

/-!
# Labels of several points

The label sets of several points are found by comparing neighbours, in a single pass. What is found is what
neighbours share. That is all there is to find, each label set once and in the order of the first points that have
them, if points with the same labels stand together, as they do where labels that are exposed alike are equal. In
general, points whose labels are spelt otherwise may stand between them: label sets may be missed then, or found in
another order and more than once.

## Main definitions

* `Snapshot.shared`: the label sets on which neighbours agree
* `Snapshot.ListsRepeated`: lists of the label sets that are given at least twice

## Main results

* `Snapshot.mem_repeated_iff`: what the pass finds is what neighbours share
* `Snapshot.listsRepeated_iff`: when the pass finds all that is repeated
* `Snapshot.listsRepeated_of_ties`: in order and without ties of different label sets, it does
* `Snapshot.duplicateLabels_exact_iff`: which snapshots have all label sets of several points found
-/

namespace Telemetry.Snapshot

variable {given : List Labels} {l m : Labels}

/-! ## What the pass finds -/

/-- **The label sets on which neighbours agree**, once for each two neighbours that do. -/
def shared : List Labels → List Labels
  | a :: b :: rest => if a = b then b :: shared (b :: rest) else shared (b :: rest)
  | _ => []

theorem shared_sublist (given : List Labels) : (shared given).Sublist given := by
  fun_induction shared given with
  | case1 a rest ih => exact ih.cons_cons a
  | case2 a b rest hab ih => exact ih.cons a
  | case3 given => exact List.nil_sublist given

theorem two_le_count_of_mem_shared (h : l ∈ shared given) : 2 ≤ given.count l := by
  fun_induction shared given with
  | case1 a rest ih =>
    rcases List.mem_cons.1 h with rfl | h
    · simp
    · exact Nat.le_trans (ih h) List.count_le_count_cons
  | case2 a b rest hab ih => exact Nat.le_trans (ih h) List.count_le_count_cons
  | case3 given => cases h

theorem repeated_sublist (reported : Option Labels) (given : List Labels) :
    (repeated reported given).Sublist (shared given) := by
  fun_induction repeated reported given with
  | case1 reported a b rest h ih =>
    rw [shared, if_pos h.1]
    exact ih.cons_cons b
  | case2 reported a b rest h ih =>
    rw [shared]
    split
    · exact ih.cons b
    · exact ih
  | case3 => exact List.nil_sublist _

/-- What is shared is found, unless it has been reported already. -/
theorem mem_repeated_of_mem_shared (reported : Option Labels) (h : l ∈ shared given) :
    reported = some l ∨ l ∈ repeated reported given := by
  fun_induction repeated reported given with
  | case1 reported a b rest hab ih =>
    rw [shared, if_pos hab.1] at h
    rcases List.mem_cons.1 h with rfl | h
    · exact .inr List.mem_cons_self
    · rcases ih h with hb | h
      · rw [Option.some.inj hb]
        exact .inr List.mem_cons_self
      · exact .inr (List.mem_cons_of_mem _ h)
  | case2 reported a b rest hab ih =>
    rw [shared] at h
    split at h
    · next heq =>
      rcases List.mem_cons.1 h with rfl | h
      · -- Only a label set that has been reported is passed over here.
        exact .inl (not_not.1 fun hne => hab ⟨heq, hne⟩)
      · exact ih h
    · exact ih h
  | case3 reported given hgiven =>
    rw [shared] at h
    · cases h
    · exact hgiven

/-- **What the pass finds is what neighbours share.** -/
theorem mem_repeated_iff : l ∈ repeated none given ↔ l ∈ shared given := by
  constructor
  · exact fun h => (repeated_sublist none given).subset h
  · intro h
    rcases mem_repeated_of_mem_shared none h with hnone | h
    · cases hnone
    · exact h

theorem chained_repeated (reported : Option Labels) (given : List Labels) :
    (∀ l ∈ (repeated reported given).head?, reported ≠ some l) ∧ Chained (· ≠ ·) (repeated reported given) := by
  fun_induction repeated reported given with
  | case1 reported a b rest h ih =>
    refine ⟨fun l hl => ?_, chained_cons.2 ⟨fun l hl hbl => ih.1 l hl (congrArg some hbl), ih.2⟩⟩
    rw [← Option.some.inj hl]
    exact h.2
  | case2 reported a b rest h ih => exact ih
  | case3 => exact ⟨by simp, chained_nil⟩

/-- A relation that all label sets have to themselves holds between those that are shared if it does between those
that are found, and the one that has been reported. -/
theorem pairwise_shared {R : Labels → Labels → Prop} (hrefl : ∀ l, R l l) (reported : Option Labels)
    (h : (reported.toList ++ repeated reported given).Pairwise R) :
    (reported.toList ++ shared given).Pairwise R := by
  -- What has been reported counts as found, so that the pass can be cut anywhere.
  fun_induction repeated reported given with
  | case1 reported a b rest hab ih =>
    rw [shared, if_pos hab.1]
    obtain ⟨hreported, hfound, hacross⟩ := List.pairwise_append.1 h
    refine List.pairwise_append.2 ⟨hreported, ih hfound, fun l hl m hm => hacross l hl m ?_⟩
    rcases List.mem_cons.1 hm with rfl | hm
    · exact List.mem_cons_self
    · rcases mem_repeated_of_mem_shared (some b) hm with hb | hm
      · rw [Option.some.inj hb]
        exact List.mem_cons_self
      · exact List.mem_cons_of_mem _ hm
  | case2 reported a b rest hab ih =>
    rw [shared]
    split
    · next heq =>
      obtain rfl : reported = some b := not_not.1 fun hne => hab ⟨heq, hne⟩
      obtain ⟨hb, hshared⟩ := List.pairwise_cons.1 (ih h)
      exact List.pairwise_cons.2 ⟨List.forall_mem_cons.2 ⟨hrefl b, hb⟩, List.pairwise_cons.2 ⟨hb, hshared⟩⟩
    · exact ih h
  | case3 reported given hgiven =>
    rw [shared]
    · exact h
    · exact hgiven

/-! ## When all is found -/

/-- **Lists of the label sets that are given at least twice**, each once, in the order in which they are first given. -/
structure ListsRepeated (given listed : List Labels) : Prop where
  mem_iff : ∀ l, l ∈ listed ↔ 2 ≤ given.count l
  nodup : listed.Nodup
  ordered : listed.Pairwise fun l m => given.idxOf l < given.idxOf m

/-- **When the pass finds all that is repeated**: exactly if all of it is shared by neighbours somewhere, and shared in
the order in which it is first given. -/
theorem listsRepeated_iff :
    ListsRepeated given (repeated none given) ↔
      (∀ l, 2 ≤ given.count l → l ∈ shared given) ∧
        (shared given).Pairwise fun l m => given.idxOf l ≤ given.idxOf m := by
  constructor
  · intro h
    refine ⟨fun l hl => mem_repeated_iff.1 ((h.mem_iff l).2 hl), ?_⟩
    exact pairwise_shared (fun _ => Nat.le_refl _) none (h.ordered.imp fun hlt => Nat.le_of_lt hlt)
  · rintro ⟨hall, hordered⟩
    have hchained : Chained (fun l m => given.idxOf l < given.idxOf m) (repeated none given) := by
      have hle := chained_of_pairwise (hordered.sublist (repeated_sublist none given))
      refine ((chained_repeated none given).2.and hle).imp fun l hl m hm h => ?_
      have hmem := (shared_sublist given).subset (mem_repeated_iff.1 hl)
      exact Nat.lt_of_le_of_ne h.2 fun heq => h.1 ((List.idxOf_inj hmem).1 heq)
    have hlt : (repeated none given).Pairwise fun l m => given.idxOf l < given.idxOf m := by
      refine Chained.pairwise (fun l m n hlm hmn => ?_) hchained
      exact Nat.lt_trans hlm hmn
    refine ⟨fun l => ?_, hlt.imp fun {l m} h heq => ?_, hlt⟩
    · rw [mem_repeated_iff]
      exact ⟨two_le_count_of_mem_shared, hall l⟩
    · rw [heq] at h
      exact Nat.lt_irrefl _ h

/-! ### In order -/

section Ordered

variable (hordered : given.Pairwise fun l m => (Labels.order l m).isLE = true)
  (hties : ∀ l ∈ given, ∀ m ∈ given, Labels.order l m = .eq → l = m)

include hordered hties

/-- In order, label sets that are given twice are shared by neighbours, if only equal ones tie. -/
theorem mem_shared_of_two_le_count (h : 2 ≤ given.count l) : l ∈ shared given := by
  fun_induction shared given with
  | case1 a rest ih =>
    by_cases hla : a = l
    · rw [hla]
      exact List.mem_cons_self
    · rw [List.count_cons_of_ne hla] at h
      refine List.mem_cons_of_mem _ (ih (List.pairwise_cons.1 hordered).2 (fun l hl m hm => ?_) h)
      exact hties l (List.mem_cons_of_mem _ hl) m (List.mem_cons_of_mem _ hm)
  | case2 a b rest hab ih =>
    obtain ⟨ha, hrest⟩ := List.pairwise_cons.1 hordered
    by_cases hla : a = l
    · -- The second one stands between two equal ones, and would tie with them.
      subst hla
      have hmem : a ∈ b :: rest := List.count_pos_iff.1 (by simp only [List.count_cons_self] at h; omega)
      have hba : (Labels.order b a).isLE = true := by
        rcases List.mem_cons.1 hmem with heq | hmem
        · exact absurd heq hab
        · exact (List.pairwise_cons.1 hrest).1 a hmem
      refine absurd (hties a List.mem_cons_self b (by simp) ?_) hab
      exact Std.OrientedCmp.isLE_antisymm (ha b List.mem_cons_self) hba
    · rw [List.count_cons_of_ne hla] at h
      refine ih hrest (fun l hl m hm => ?_) h
      exact hties l (List.mem_cons_of_mem _ hl) m (List.mem_cons_of_mem _ hm)
  | case3 given hgiven =>
    match given with
    | [] => simp at h
    | [a] =>
      have hle : [a].count l ≤ 1 := List.count_le_length
      omega
    | a :: b :: rest => exact absurd rfl (hgiven a b rest)

/-- In order, later label sets are not given earlier for the first time, if only equal ones tie. -/
theorem pairwise_idxOf : given.Pairwise fun l m => given.idxOf l ≤ given.idxOf m := by
  induction given with
  | nil => exact .nil
  | cons a rest ih =>
    obtain ⟨ha, hrest⟩ := List.pairwise_cons.1 hordered
    refine List.pairwise_cons.2 ⟨fun m _ => by simp, ?_⟩
    have hih := ih hrest fun l hl m hm => hties l (List.mem_cons_of_mem _ hl) m (List.mem_cons_of_mem _ hm)
    refine (hrest.and hih).imp_of_mem fun {l m} hl hm h => ?_
    by_cases hal : a = l
    · simp [hal]
    · by_cases ham : a = m
      · -- What stands between two equal ones ties with them.
        subst ham
        refine absurd (hties a List.mem_cons_self l (List.mem_cons_of_mem _ hl) ?_) hal
        exact Std.OrientedCmp.isLE_antisymm (ha l hl) h.1
      · rw [List.idxOf_cons_ne _ hal, List.idxOf_cons_ne _ ham]
        exact Nat.succ_le_succ h.2

/-- **In order and without ties of different label sets, the pass finds all that is repeated.** -/
theorem listsRepeated_of_ties : ListsRepeated given (repeated none given) := by
  refine listsRepeated_iff.2 ⟨fun l => mem_shared_of_two_le_count hordered hties, ?_⟩
  exact (pairwise_idxOf hordered hties).sublist (shared_sublist given)

end Ordered

/-! ## Snapshots -/

/-- **Which snapshots have all label sets of several points found.** What is found always is what neighbouring points
share. It is all label sets of several points, each once and in the order of the first points that have them, exactly
if all of them are shared by neighbours somewhere, in that order. So it is where labels that are exposed alike are
equal. -/
theorem duplicateLabels_exact_iff (s : Snapshot) :
    (∀ l, l ∈ s.duplicateLabels ↔ l ∈ shared (s.points.map (·.labels))) ∧
      (ListsRepeated (s.points.map (·.labels)) s.duplicateLabels ↔
        (∀ l, 2 ≤ (s.points.map (·.labels)).count l → l ∈ shared (s.points.map (·.labels))) ∧
          (shared (s.points.map (·.labels))).Pairwise fun l m =>
            (s.points.map (·.labels)).idxOf l ≤ (s.points.map (·.labels)).idxOf m) ∧
      ((∀ p ∈ s.points, ∀ q ∈ s.points,
          sameEntries p.labels.toExposedList q.labels.toExposedList = true → p.labels = q.labels) →
        ListsRepeated (s.points.map (·.labels)) s.duplicateLabels) := by
  refine ⟨fun l => mem_repeated_iff, listsRepeated_iff, fun hexposed => ?_⟩
  refine listsRepeated_of_ties (List.pairwise_map.2 s.pairwise_labels) fun l hl m hm htie => ?_
  obtain ⟨p, hp, rfl⟩ := List.mem_map.1 hl
  obtain ⟨q, hq, rfl⟩ := List.mem_map.1 hm
  exact hexposed p hp q hq ((Labels.sameEntries_toExposedList_iff _ _).2 htie)

/-- **Label sets of several points are not always found**: of the readings, the first and the last have the same labels,
and no neighbours do. -/
theorem interleaved_not_found :
    ¬ListsRepeated (interleaved.points.map (·.labels)) interleaved.duplicateLabels := by
  intro h
  have hnone : interleaved.duplicateLabels = [] := by decide
  have htwice : 2 ≤ (interleaved.points.map (·.labels)).count (.single "a.b" "1" (by decide)) := by decide
  have hfound := (h.mem_iff _).2 htwice
  rw [hnone] at hfound
  cases hfound

end Telemetry.Snapshot
