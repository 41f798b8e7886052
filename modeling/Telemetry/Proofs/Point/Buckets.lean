import Telemetry.Point.Buckets
import Telemetry.Proofs.Arrangement
import Telemetry.Proofs.Steps

/-!
# Canonical buckets

Buckets are made of bounds and counts, given side by side in any order. They do not depend on that order, and are made
exactly if there is one count for each bound, no count is negative, and the bounds are different numbers, among them the
positive infinity. Whole counts add up to counts that do not decrease, the last of which is the count of everything.

## Main definitions

* `steps`: the steps between numbers
* `Bucket.entry`, `Buckets.ofNumbers`: a bucket as a pair of numbers, and buckets made of such pairs
* `Buckets.Arranges`: buckets that arrange bounds and counts

## Main results

* `Buckets.exists_cumulative?_of_whole`: whole counts add up to counts whose steps they are
* `Buckets.count?_eq_getLast?`: the count of everything is the one up to the last bound
* `Buckets.ofBuckets_eq_ok_iff`, `Buckets.ofNumbers_eq_ok_iff`: which buckets are made
* `Buckets.exists_ofBuckets_iff`, `Buckets.exists_make_iff`, `Buckets.exists_ofNumbers_iff`: when there are some
* `Buckets.ofNumbers_canonical`: buckets are canonical
-/

namespace Telemetry

/-! ## Steps between numbers -/

/-- **The steps between numbers**, the first one from a start. -/
def steps (start : Int) : List Int → List Int
  | [] => []
  | n :: rest => (n - start) :: steps n rest

/-- Numbers do not decrease if no step between them is negative. -/
theorem pairwise_of_steps {start : Int} {totals : List Int} (h : ∀ step ∈ steps start totals, 0 ≤ step) :
    (start :: totals).Pairwise (· ≤ ·) := by
  induction totals generalizing start with
  | nil => exact List.pairwise_singleton _ _
  | cons n rest ih =>
    rw [steps, List.forall_mem_cons] at h
    have hstart : start ≤ n := by omega
    have hrest := ih h.2
    refine List.pairwise_cons.2 ⟨fun m hm => ?_, hrest⟩
    rcases List.mem_cons.1 hm with rfl | hm
    · exact hstart
    · exact Int.le_trans hstart ((List.pairwise_cons.1 hrest).1 m hm)

/-! ## Counts of buckets -/

/-- An amount that is a whole number is not negative. -/
theorem Amount.nonneg_of_whole? {a : Amount} {n : Int} (h : a.number.whole? = some n) : 0 ≤ n := by
  have hnegative := a.notNegative
  cases hnumber : a.number with
  | whole m =>
    rw [hnumber, Number.isNegative_whole, decide_eq_false_iff_not] at hnegative
    rw [hnumber, Number.whole?, Option.some.injEq] at h
    omega
  | truth b =>
    rw [hnumber, Number.whole?, Option.some.injEq] at h
    subst h
    cases b <;> decide
  | real x =>
    rw [hnumber] at h
    cases h

namespace Buckets

/-- **Whole numbers add up to whole numbers whose steps they are.** -/
theorem exists_runningTotals?_of_whole {total : Number} {start : Int} (htotal : total.whole? = some start)
    {ns : List Number} (hns : ∀ n ∈ ns, n.whole?.isSome = true) :
    ∃ totals, runningTotals? total ns = some (totals.map Number.whole) ∧
      (steps start totals).map some = ns.map Number.whole? := by
  induction ns generalizing total start with
  | nil => exact ⟨[], rfl, rfl⟩
  | cons n rest ih =>
    rw [List.forall_mem_cons] at hns
    obtain ⟨m, hm⟩ := Option.isSome_iff_exists.1 hns.1
    have hadd : total.add? n = some (.whole (start + m)) := by rw [Number.add?, htotal, hm]
    have hnext : (Number.whole (start + m)).whole? = some (start + m) := rfl
    obtain ⟨totals, htotals, hsteps⟩ := ih hnext hns.2
    refine ⟨(start + m) :: totals, ?_, ?_⟩
    · rw [runningTotals?, hadd]
      simp only [Option.bind_eq_bind, Option.bind_some, htotals]
      rfl
    · have hstep : start + m - start = m := by omega
      rw [steps, List.map_cons, List.map_cons, hsteps, hm, hstep]

/-- The sum of numbers is the last of their running totals. -/
theorem total?_eq_getLast? {total : Number} {ns totals : List Number} (h : runningTotals? total ns = some totals) :
    total? total ns = some (totals.getLast?.getD total) := by
  induction ns generalizing total totals with
  | nil =>
    cases h
    rfl
  | cons n rest ih =>
    simp only [runningTotals?, Option.bind_eq_bind, Option.bind_eq_some_iff] at h
    obtain ⟨next, hnext, others, hothers, h⟩ := h
    cases h
    rw [total?, hnext]
    simp only [Option.bind_eq_bind, Option.bind_some, ih hothers, List.getLast?_cons, Option.getD_some]

theorem length_of_runningTotals? {total : Number} {ns totals : List Number}
    (h : runningTotals? total ns = some totals) : totals.length = ns.length := by
  induction ns generalizing total totals with
  | nil =>
    cases h
    rfl
  | cons n rest ih =>
    simp only [runningTotals?, Option.bind_eq_bind, Option.bind_eq_some_iff] at h
    obtain ⟨next, -, others, hothers, h⟩ := h
    cases h
    rw [List.length_cons, List.length_cons, ih hothers]

theorem length_of_cumulative? {buckets : Buckets} {totals : List Number}
    (h : buckets.cumulative? = some totals) : totals.length = buckets.bounds.length := by
  rw [length_of_runningTotals? h, counts, bounds, List.length_map, List.length_map]

variable {buckets : Buckets}

theorem pairwise_bounds (buckets : Buckets) :
    buckets.bounds.Pairwise fun x y => (Number.real x).lt (.real y) = true := by
  refine List.pairwise_map.2 (buckets.increasing.imp_of_mem fun {a b} ha hb hlt => ?_)
  have ha : (Number.real a.bound).isNaN = false := buckets.bounded a ha
  have hb : (Number.real b.bound).isNaN = false := buckets.bounded b hb
  rw [Number.lt_eq_order ha hb, beq_iff_eq]
  exact hlt

theorem getLast?_bounds (buckets : Buckets) : buckets.bounds.getLast? = some (.infinite false) := by
  rw [bounds, List.getLast?_map]
  exact buckets.endsOpen

theorem bounds_ne_nil (buckets : Buckets) : buckets.bounds ≠ [] := by
  intro hnil
  have hlast := buckets.getLast?_bounds
  rw [hnil] at hlast
  cases hlast

/-- **Whole counts of buckets add up to counts whose steps they are.** -/
theorem exists_cumulative?_of_whole (h : ∀ n ∈ buckets.counts, n.whole?.isSome = true) :
    ∃ totals, buckets.cumulative? = some (totals.map Number.whole) ∧
      (steps 0 totals).map some = buckets.counts.map Number.whole? :=
  exists_runningTotals?_of_whole rfl h

/-- **The count of everything is the one up to the last bound.** -/
theorem count?_eq_getLast? {totals : List Number} (h : buckets.cumulative? = some totals) :
    buckets.count? = totals.getLast? := by
  have hlength := length_of_cumulative? h
  have htotals : totals ≠ [] := by
    rintro rfl
    exact buckets.bounds_ne_nil (List.length_eq_zero_iff.1 hlength.symm)
  rw [count?, total?_eq_getLast? h, List.getLast?_eq_getLast_of_ne_nil htotals, Option.getD_some]

/-- Whole counts of buckets are not negative, and neither are steps that are these counts. -/
theorem nonneg_of_steps {totals : List Int} (h : (steps 0 totals).map some = buckets.counts.map Number.whole?) :
    ∀ step ∈ steps 0 totals, 0 ≤ step := by
  intro step hstep
  have hmem : some step ∈ buckets.counts.map Number.whole? := h ▸ List.mem_map_of_mem hstep
  rw [counts, List.map_map] at hmem
  obtain ⟨bucket, -, hbucket⟩ := List.mem_map.1 hmem
  exact bucket.count.nonneg_of_whole? hbucket

end Buckets

/-! ## Construction -/

namespace Bucket

/-- **A bucket as a pair of numbers**: its bound and its count. -/
def entry (x : Bucket) : Binary64 × Number :=
  (x.bound, x.count.number)

theorem entry_injective : Function.Injective entry := by
  rintro ⟨bound, count, hcount⟩ ⟨bound', count', hcount'⟩ h
  cases h
  rfl

/-- Buckets tie if their bounds are equal by value. -/
theorem order_ne_eq_iff {x y : Bucket} (hx : x.bound.isNaN = false) (hy : y.bound.isNaN = false) :
    order x y ≠ .eq ↔ (Number.real x.bound).eq (.real y.bound) = false := by
  have horder : order x y = Number.order (.real x.bound) (.real y.bound) := rfl
  rw [horder, Number.eq_eq_order (a := .real x.bound) (b := .real y.bound) hx hy, beq_eq_false_iff_ne]

/-- No bucket comes behind one whose bound is the positive infinity, unless it has the same bound. -/
theorem order_infinite_ne_lt {x y : Bucket} (hx : x.bound = .infinite false) (hy : y.bound.isNaN = false) :
    order x y ≠ .lt := by
  have hplace : x.bound.place? = some .top := by
    rw [hx]
    rfl
  have hbehind (p : Extended) : compare (some Extended.top) (some p) ≠ .lt := by
    cases p <;> exact Ordering.noConfusion
  rw [order, compareOn, hplace]
  cases hbound : y.bound with
  | nan =>
    rw [hbound] at hy
    cases hy
  | infinite negative => exact hbehind _
  | finite negative units representable => exact hbehind _

end Bucket

namespace Buckets

variable {b : Buckets} {buckets : List Bucket} {bounds : List Binary64} {counts : List Int} {e : Error}

/-- **Which buckets are made of a list**: those that have its elements. -/
theorem ofBuckets_eq_ok_iff : ofBuckets buckets = .ok b ↔ buckets.Perm b.toList := by
  constructor
  · intro h
    unfold ofBuckets at h
    dsimp only at h
    split at h
    · split at h
      · cases h
      · split at h
        · cases h
          exact (arrange_perm Bucket.order buckets).symm
        · cases h
    · cases h
  · intro hperm
    have harrange := b.increasing.arrange_eq_of_perm hperm
    unfold ofBuckets
    dsimp only
    rw [dif_pos (by rw [harrange]; exact b.bounded)]
    split
    · next first _ htie =>
      rw [harrange, b.increasing.firstTie?_eq_none] at htie
      cases htie
    · rw [dif_pos (by rw [harrange]; exact b.endsOpen)]
      exact congrArg Except.ok (Buckets.ext harrange)

theorem category_of_ofBuckets_eq_error (h : ofBuckets buckets = .error e) : e.category = .invalid := by
  unfold ofBuckets at h
  dsimp only at h
  split at h
  · split at h
    · cases h
      rfl
    · split at h
      · cases h
      · cases h
        rfl
  · cases h
    rfl

/-- **When buckets are made of a list**: if the bounds are different numbers, among them the positive infinity. -/
theorem exists_ofBuckets_iff :
    (∃ b, ofBuckets buckets = .ok b) ↔ (∀ x ∈ buckets.map Bucket.bound, x.isNaN = false) ∧
      ((buckets.map Bucket.bound).Pairwise fun x y => (Number.real x).eq (.real y) = false) ∧
        .infinite false ∈ buckets.map Bucket.bound := by
  rw [List.forall_mem_map, List.pairwise_map, List.mem_map]
  have hties (hnan : ∀ x ∈ buckets, x.bound.isNaN = false) :
      (buckets.Pairwise fun x y => Bucket.order x y ≠ .eq) ↔
        buckets.Pairwise fun x y => (Number.real x.bound).eq (.real y.bound) = false :=
    List.Pairwise.iff_of_mem fun hx hy => Bucket.order_ne_eq_iff (hnan _ hx) (hnan _ hy)
  simp only [ofBuckets_eq_ok_iff]
  constructor
  · rintro ⟨b, hperm⟩
    have hnan : ∀ x ∈ buckets, x.bound.isNaN = false := fun x hx => b.bounded x (hperm.mem_iff.1 hx)
    obtain ⟨top, htop, hbound⟩ := Option.map_eq_some_iff.1 b.endsOpen
    exact ⟨hnan, (hties hnan).1 ((pairwise_ne_iff_of_perm hperm).2 b.increasing.pairwise_ne),
      top, hperm.mem_iff.2 (List.mem_of_getLast? htop), hbound⟩
  · rintro ⟨hnan, hdifferent, top, htop, hbound⟩
    have hincreasing := increasing_arrange_of_ne ((hties hnan).2 hdifferent)
    have hmem : top ∈ arrange Bucket.order buckets := mem_arrange.2 htop
    obtain ⟨front, rest, hsplit⟩ := List.append_of_mem hmem
    have hrest : rest = [] := by
      refine List.eq_nil_iff_forall_not_mem.2 fun x hx => ?_
      have hx' : x ∈ arrange Bucket.order buckets := by
        rw [hsplit]
        exact List.mem_append_right _ (List.mem_cons_of_mem _ hx)
      rw [hsplit] at hincreasing
      have hlt := (List.pairwise_cons.1 (List.pairwise_append.1 hincreasing).2.1).1 x hx
      exact Bucket.order_infinite_ne_lt hbound (hnan x (mem_arrange.1 hx')) hlt
    refine ⟨⟨arrange Bucket.order buckets, fun x hx => hnan x (mem_arrange.1 hx), hincreasing, ?_⟩,
      (arrange_perm Bucket.order buckets).symm⟩
    rw [hsplit, hrest, List.getLast?_concat, Option.map_some, hbound]

end Buckets

/-! ## Bounds and counts -/

namespace Amount

variable {ifNegative : Number → Error} {n : Number}

theorem ofDatum_number_eq_ok_iff {a : Amount} : ofDatum ifNegative (.number n) = .ok a ↔ a.number = n := by
  constructor
  · intro h
    rw [ofDatum] at h
    split at h
    · cases h
      rfl
    · cases h
  · rintro rfl
    exact ofDatum_number ifNegative a

theorem eq_of_ofDatum_eq_error {e : Error} (h : ofDatum ifNegative (.number n) = .error e) : e = ifNegative n := by
  rw [ofDatum] at h
  split at h
  · cases h
  · cases h
    rfl

end Amount

namespace Buckets

variable {b : Buckets} {bounds : List Binary64} {counts : List Int} {e : Error}

/-- **Buckets of bounds and whole counts**, given side by side. -/
def ofNumbers (bounds : List Binary64) (counts : List Int) : Except Error Buckets :=
  make (bounds.map fun bound => .number (.real bound)) (counts.map Datum.whole)

theorem readBounds_eq_mapM (ds : List Datum) : readBounds ds = ds.mapM readBound := by
  induction ds with
  | nil => rfl
  | cons d rest ih => rw [readBounds, ih, List.mapM_cons]

theorem readCounts_eq_mapM (ds : List Datum) : readCounts ds = ds.mapM readCount := by
  induction ds with
  | nil => rfl
  | cons d rest ih => rw [readCounts, ih, List.mapM_cons]

theorem readBounds_real (bounds : List Binary64) :
    readBounds (bounds.map fun bound => .number (.real bound)) = .ok bounds := by
  rw [readBounds_eq_mapM, mapM_eq_ok_iff, List.forall₂_map_left_iff]
  exact List.forall₂_same.2 fun bound _ => rfl

theorem readCount_number (n : Number) :
    readCount (.number n) = Amount.ofDatum (fun _ => .point .bucketCountNegative) (.number n) := rfl

theorem readCount_number_eq_ok_iff {n : Number} {a : Amount} : readCount (.number n) = .ok a ↔ a.number = n := by
  rw [readCount_number, Amount.ofDatum_number_eq_ok_iff]

theorem exists_readCount_number_iff {n : Number} : (∃ a, readCount (.number n) = .ok a) ↔ n.isNegative = false := by
  simp only [readCount_number_eq_ok_iff]
  constructor
  · rintro ⟨a, rfl⟩
    exact a.notNegative
  · intro hn
    exact ⟨⟨n, hn⟩, rfl⟩

theorem exists_readCount_whole_iff {n : Int} : (∃ a, readCount (.whole n) = .ok a) ↔ 0 ≤ n := by
  rw [Datum.whole, exists_readCount_number_iff, Number.isNegative_whole, decide_eq_false_iff_not, Int.not_lt]

theorem category_of_readCount_eq_error {n : Number} (h : readCount (.number n) = .error e) : e.category = .invalid := by
  rw [readCount_number] at h
  rw [Amount.eq_of_ofDatum_eq_error h]
  rfl

/-- Checked counts are the whole numbers of which they are made. -/
theorem map_number_of_mapM {amounts : List Amount} (h : (counts.map Datum.whole).mapM readCount = .ok amounts) :
    amounts.map Amount.number = counts.map Number.whole := by
  rw [mapM_eq_ok_iff, List.forall₂_map_left_iff] at h
  rw [← List.forall₂_eq_eq_eq, List.forall₂_map_left_iff, List.forall₂_map_right_iff]
  exact (h.imp fun n a ha => readCount_number_eq_ok_iff.1 ha).flip

/-- Bounds and counts side by side are the pairs of the buckets. -/
theorem map_entry_zipWith (bounds : List Binary64) (amounts : List Amount) :
    (bounds.zipWith Bucket.mk amounts).map Bucket.entry = bounds.zip (amounts.map Amount.number) := by
  rw [List.map_zipWith, List.zip_map_right, List.map_zip_eq_zipWith]
  rfl

/-- The bounds and counts of buckets, side by side, are their pairs. -/
theorem zip_bounds_counts (b : Buckets) : b.bounds.zip b.counts = b.toList.map Bucket.entry :=
  (List.zip_of_prod (by rw [List.map_map]; rfl) (by rw [List.map_map]; rfl)).symm

/-- What is made of bounds that have been read, and counts. -/
theorem make_eq {ds cs : List Datum} (hbounds : readBounds ds = .ok bounds) :
    make ds cs =
      if bounds.length ≠ cs.length then .error (.point (.bucketLengths bounds.length cs.length))
      else if bounds.isEmpty then .error (.point .bucketTopMissing)
      else if bounds.any Binary64.isNaN then .error (.point .bucketNaN)
      else cs.mapM readCount >>= fun amounts => ofBuckets (bounds.zipWith Bucket.mk amounts) := by
  rw [make, hbounds, readCounts_eq_mapM]
  rfl

/-- The bounds of the given pairs are the given bounds. -/
theorem map_bound_zipWith {amounts : List Amount} (hlength : bounds.length = amounts.length) :
    (bounds.zipWith Bucket.mk amounts).map Bucket.bound = bounds := by
  have hfst : (bounds.zipWith Bucket.mk amounts).map Bucket.bound =
      ((bounds.zipWith Bucket.mk amounts).map Bucket.entry).map Prod.fst := by
    rw [List.map_map]
    rfl
  rw [hfst, map_entry_zipWith, List.map_fst_zip (by rw [List.length_map]; exact Nat.le_of_eq hlength)]

section Checks

variable {ds cs : List Datum}

/-- **Bounds and counts that pass the checks** are paired off into buckets. -/
theorem exists_make_eq (hbounds : readBounds ds = .ok bounds) (hlength : bounds.length = cs.length) (hne : bounds ≠ [])
    (hnan : ∀ x ∈ bounds, x.isNaN = false) (hcounts : ∀ c ∈ cs, ∃ a, readCount c = .ok a) :
    ∃ amounts : List Amount, amounts.length = bounds.length ∧ cs.mapM readCount = .ok amounts ∧
      make ds cs = ofBuckets (bounds.zipWith Bucket.mk amounts) := by
  obtain ⟨amounts, hall⟩ := exists_forall₂ hcounts
  have hamounts := mapM_eq_ok_iff.2 hall
  refine ⟨amounts, hall.length_eq.symm.trans hlength.symm, hamounts, ?_⟩
  rw [make_eq hbounds, if_neg (not_not.2 hlength), if_neg (by simpa using hne), if_neg (by simpa using hnan), hamounts]
  rfl

/-- Buckets pass the checks of their bounds and counts. -/
theorem checks_of_make_eq_ok (hbounds : readBounds ds = .ok bounds) (h : make ds cs = .ok b) :
    bounds.length = cs.length ∧ bounds ≠ [] ∧ (∀ x ∈ bounds, x.isNaN = false) ∧
      ∀ c ∈ cs, ∃ a, readCount c = .ok a := by
  rw [make_eq hbounds] at h
  split at h
  · cases h
  · next hlength =>
    split at h
    · cases h
    · next hne =>
      split at h
      · cases h
      · next hnan =>
        obtain ⟨amounts, hamounts, -⟩ := bind_eq_ok_iff.1 h
        rw [mapM_eq_ok_iff] at hamounts
        refine ⟨not_not.1 hlength, by simpa using hne, by simpa using hnan, fun c hc => ?_⟩
        obtain ⟨a, -, ha⟩ := exists_of_mem_left hamounts hc
        exact ⟨a, ha⟩

/-- **When buckets are made of bounds that have been read, and counts.** -/
theorem exists_make_iff (hread : readBounds ds = .ok bounds) :
    (∃ b, make ds cs = .ok b) ↔ bounds.length = cs.length ∧ bounds ≠ [] ∧
      (∀ x ∈ bounds, x.isNaN = false) ∧ (∀ c ∈ cs, ∃ a, readCount c = .ok a) ∧
        (bounds.Pairwise fun x y => (Number.real x).eq (.real y) = false) ∧ .infinite false ∈ bounds := by
  have hchecked (hlength : bounds.length = cs.length) (hne : bounds ≠ []) (hnan : ∀ x ∈ bounds, x.isNaN = false)
      (hcounts : ∀ c ∈ cs, ∃ a, readCount c = .ok a) : (∃ b, make ds cs = .ok b) ↔
        (bounds.Pairwise fun x y => (Number.real x).eq (.real y) = false) ∧ .infinite false ∈ bounds := by
    obtain ⟨amounts, hamounts, -, hmade⟩ := exists_make_eq hread hlength hne hnan hcounts
    rw [hmade, exists_ofBuckets_iff, map_bound_zipWith hamounts.symm, and_iff_right hnan]
  constructor
  · intro h
    obtain ⟨b, hb⟩ := h
    obtain ⟨hlength, hne, hnan, hcounts⟩ := checks_of_make_eq_ok hread hb
    exact ⟨hlength, hne, hnan, hcounts, (hchecked hlength hne hnan hcounts).1 ⟨b, hb⟩⟩
  · rintro ⟨hlength, hne, hnan, hcounts, hbounds⟩
    exact (hchecked hlength hne hnan hcounts).2 hbounds

/-- Bounds that have been read and counts that are numbers make no buckets only if they are invalid. -/
theorem category_of_make_eq_error {ns : List Number} (hbounds : readBounds ds = .ok bounds)
    (h : make ds (ns.map .number) = .error e) : e.category = .invalid := by
  rw [make_eq hbounds] at h
  split at h
  · cases h
    rfl
  · split at h
    · cases h
      rfl
    · split at h
      · cases h
        rfl
      · rcases bind_eq_error_iff.1 h with hcounts | ⟨amounts, -, hbuckets⟩
        · obtain ⟨d, hd, hread⟩ := exists_of_mapM_eq_error hcounts
          obtain ⟨n, -, rfl⟩ := List.mem_map.1 hd
          exact category_of_readCount_eq_error hread
        · exact category_of_ofBuckets_eq_error hbuckets

end Checks

/-- Bounds and whole counts that pass the checks are paired off into buckets. -/
theorem exists_ofNumbers_eq (hlength : bounds.length = counts.length) (hne : bounds ≠ [])
    (hnan : ∀ x ∈ bounds, x.isNaN = false) (hcounts : ∀ n ∈ counts, 0 ≤ n) :
    ∃ amounts : List Amount, amounts.map Amount.number = counts.map Number.whole ∧
      ofNumbers bounds counts = ofBuckets (bounds.zipWith Bucket.mk amounts) := by
  have hread : ∀ c ∈ counts.map Datum.whole, ∃ a, readCount c = .ok a :=
    List.forall_mem_map.2 fun n hn => exists_readCount_whole_iff.2 (hcounts n hn)
  obtain ⟨amounts, -, hamounts, hmade⟩ := exists_make_eq (readBounds_real bounds)
    (by rw [List.length_map, hlength]) hne hnan hread
  exact ⟨amounts, map_number_of_mapM hamounts, hmade⟩

/-- Buckets pass the checks of their bounds and whole counts. -/
theorem checks_of_ofNumbers_eq_ok (h : ofNumbers bounds counts = .ok b) :
    bounds.length = counts.length ∧ bounds ≠ [] ∧ (∀ x ∈ bounds, x.isNaN = false) ∧ ∀ n ∈ counts, 0 ≤ n := by
  obtain ⟨hlength, hne, hnan, hcounts⟩ := checks_of_make_eq_ok (readBounds_real bounds) h
  rw [List.length_map] at hlength
  exact ⟨hlength, hne, hnan, fun n hn => exists_readCount_whole_iff.1 (hcounts _ (List.mem_map_of_mem hn))⟩

/-- Numbers that make up the pairs of buckets are their bounds and their counts. -/
theorem perm_bounds_counts {ns : List Number} (hlength : bounds.length = ns.length)
    (hperm : (bounds.zip ns).Perm (b.bounds.zip b.counts)) : bounds.Perm b.bounds ∧ ns.Perm b.counts := by
  have hsize : b.bounds.length = b.counts.length := by rw [Buckets.bounds, counts, List.length_map, List.length_map]
  have hfst := hperm.map Prod.fst
  have hsnd := hperm.map Prod.snd
  rw [List.map_fst_zip (Nat.le_of_eq hlength), List.map_fst_zip (Nat.le_of_eq hsize)] at hfst
  rw [List.map_snd_zip (Nat.le_of_eq hlength.symm), List.map_snd_zip (Nat.le_of_eq hsize.symm)] at hsnd
  exact ⟨hfst, hsnd⟩

/-- **Which buckets are made of bounds and counts**: those that have the same pairs of a bound and a count. -/
theorem ofNumbers_eq_ok_iff :
    ofNumbers bounds counts = .ok b ↔ bounds.length = counts.length ∧
      (bounds.zip (counts.map Number.whole)).Perm (b.bounds.zip b.counts) := by
  constructor
  · intro h
    obtain ⟨hlength, hne, hnan, hcounts⟩ := checks_of_ofNumbers_eq_ok h
    obtain ⟨amounts, hamounts, hmade⟩ := exists_ofNumbers_eq hlength hne hnan hcounts
    have hperm := (ofBuckets_eq_ok_iff.1 (hmade.symm.trans h)).map Bucket.entry
    rw [map_entry_zipWith, hamounts, ← zip_bounds_counts] at hperm
    exact ⟨hlength, hperm⟩
  · rintro ⟨hlength, hperm⟩
    obtain ⟨hbounds, hcounts⟩ := perm_bounds_counts (by rw [List.length_map, hlength]) hperm
    have hne : bounds ≠ [] := by
      rintro rfl
      exact b.bounds_ne_nil (List.nil_perm.1 hbounds)
    have hnan : ∀ x ∈ bounds, x.isNaN = false := by
      intro bound hbound
      obtain ⟨x, hx, rfl⟩ := List.mem_map.1 (hbounds.mem_iff.1 hbound)
      exact b.bounded x hx
    have hnonneg : ∀ n ∈ counts, 0 ≤ n := by
      intro n hn
      obtain ⟨x, -, hcount⟩ := List.mem_map.1 (hcounts.mem_iff.1 (List.mem_map_of_mem hn))
      exact x.count.nonneg_of_whole? (by rw [show x.count.number = .whole n from hcount]; rfl)
    obtain ⟨amounts, hamounts, hmade⟩ := exists_ofNumbers_eq hlength hne hnan hnonneg
    rw [hmade, ofBuckets_eq_ok_iff, ← List.map_perm_map_iff Bucket.entry_injective, map_entry_zipWith, hamounts,
      ← zip_bounds_counts]
    exact hperm

/-- **When buckets are made of bounds and whole counts.** -/
theorem exists_ofNumbers_iff :
    (∃ b, ofNumbers bounds counts = .ok b) ↔ bounds.length = counts.length ∧ bounds ≠ [] ∧
      (∀ x ∈ bounds, x.isNaN = false) ∧ (∀ n ∈ counts, 0 ≤ n) ∧
        (bounds.Pairwise fun x y => (Number.real x).eq (.real y) = false) ∧ .infinite false ∈ bounds := by
  rw [ofNumbers, exists_make_iff (readBounds_real bounds), List.length_map, List.forall_mem_map]
  simp only [exists_readCount_whole_iff]

theorem category_of_ofNumbers_eq_error (h : ofNumbers bounds counts = .error e) : e.category = .invalid := by
  have hcounts : counts.map Datum.whole = (counts.map Number.whole).map .number := by
    rw [List.map_map]
    rfl
  rw [ofNumbers, hcounts] at h
  exact category_of_make_eq_error (readBounds_real bounds) h

/-- **Bounds and counts in another order** make the same buckets. -/
theorem ofNumbers_eq_ok_of_perm {bounds' : List Binary64} {counts' : List Int} (h : ofNumbers bounds counts = .ok b)
    (hlength : bounds'.length = counts'.length) (hperm : (bounds'.zip counts').Perm (bounds.zip counts)) :
    ofNumbers bounds' counts' = .ok b := by
  rw [ofNumbers_eq_ok_iff] at h ⊢
  refine ⟨hlength, .trans ?_ h.2⟩
  rw [List.zip_map_right, List.zip_map_right]
  exact hperm.map _

/-- The counts of buckets that are made of whole counts are whole. -/
theorem isSome_whole?_of_ofNumbers_eq_ok (h : ofNumbers bounds counts = .ok b) :
    ∀ n ∈ b.counts, n.whole?.isSome = true := by
  obtain ⟨hlength, hperm⟩ := ofNumbers_eq_ok_iff.1 h
  have hcounts := (perm_bounds_counts (by rw [List.length_map, hlength]) hperm).2
  intro n hn
  obtain ⟨m, -, rfl⟩ := List.mem_map.1 (hcounts.mem_iff.2 hn)
  rfl

/-- **Whole counts of buckets add up to counts that do not decrease**, the last of which is the count of everything. -/
theorem exists_totals_of_whole (h : ∀ n ∈ b.counts, n.whole?.isSome = true) :
    ∃ totals : List Int, b.cumulative? = some (totals.map Number.whole) ∧ totals.length = b.bounds.length ∧
      totals.Pairwise (· ≤ ·) ∧ ∃ total, totals.getLast? = some total ∧ b.count? = some (.whole total) := by
  obtain ⟨totals, htotals, hsteps⟩ := exists_cumulative?_of_whole h
  have hlength := length_of_cumulative? htotals
  rw [List.length_map] at hlength
  have hne : totals ≠ [] := by
    rintro rfl
    exact b.bounds_ne_nil (List.length_eq_zero_iff.1 hlength.symm)
  have hlast := List.getLast?_eq_getLast_of_ne_nil hne
  refine ⟨totals, htotals, hlength, (List.pairwise_cons.1 (pairwise_of_steps (nonneg_of_steps hsteps))).2,
    totals.getLast hne, hlast, ?_⟩
  rw [count?_eq_getLast? htotals, List.getLast?_map, hlast, Option.map_some]

/-- **Buckets that arrange bounds and counts.** The bounds increase and end with the positive infinity. The pairs of a
bound and a count are the given ones, and their order does not matter. The counts up to the bounds do not decrease, and
the last one is the count of everything. -/
structure Arranges (b : Buckets) (bounds : List Binary64) (counts : List Int) : Prop where
  increasing : b.bounds.Pairwise fun x y => (Number.real x).lt (.real y) = true
  endsOpen : b.bounds.getLast? = some (.infinite false)
  pairs : (b.bounds.zip b.counts).Perm (bounds.zip (counts.map Number.whole))
  canonical : ∀ bounds' counts', bounds'.length = counts'.length → (bounds'.zip counts').Perm (bounds.zip counts) →
    ofNumbers bounds' counts' = .ok b
  cumulative : ∃ totals : List Int, b.cumulative? = some (totals.map Number.whole) ∧
    totals.length = bounds.length ∧ totals.Pairwise (· ≤ ·) ∧
      ∃ total, totals.getLast? = some total ∧ b.count? = some (.whole total)

theorem arranges_of_ofNumbers_eq_ok (h : ofNumbers bounds counts = .ok b) : b.Arranges bounds counts := by
  obtain ⟨hlength, hperm⟩ := ofNumbers_eq_ok_iff.1 h
  have hbounds := (perm_bounds_counts (by rw [List.length_map, hlength]) hperm).1.length_eq
  have htotals := exists_totals_of_whole (isSome_whole?_of_ofNumbers_eq_ok h)
  rw [← hbounds] at htotals
  exact
    { increasing := b.pairwise_bounds
      endsOpen := b.getLast?_bounds
      pairs := hperm.symm
      canonical := fun _ _ hlength' hperm' => ofNumbers_eq_ok_of_perm h hlength' hperm'
      cumulative := htotals }

/-- **Buckets are canonical.** Bounds and whole counts make buckets exactly if there is one count for each bound, and
at least one, no count is negative, and the bounds are different numbers, among them the positive infinity. Anything
else is invalid. The buckets arrange the bounds and the counts. -/
theorem ofNumbers_canonical (bounds : List Binary64) (counts : List Int) :
    ((∃ b, ofNumbers bounds counts = .ok b) ↔ bounds.length = counts.length ∧ bounds ≠ [] ∧
      (∀ x ∈ bounds, x.isNaN = false) ∧ (∀ n ∈ counts, 0 ≤ n) ∧
        (bounds.Pairwise fun x y => (Number.real x).eq (.real y) = false) ∧ .infinite false ∈ bounds) ∧
    (∀ e, ofNumbers bounds counts = .error e → e.category = .invalid) ∧
      ∀ b, ofNumbers bounds counts = .ok b → b.Arranges bounds counts :=
  ⟨exists_ofNumbers_iff, fun _ => category_of_ofNumbers_eq_error, fun _ => arranges_of_ofNumbers_eq_ok⟩

/-- The buckets of response times: three up to 0.5, two more up to 1, and one above. -/
def responseBuckets : Buckets where
  toList := [⟨.ofDecimal false 5 (-1), .ofNat 3⟩, ⟨.ofDecimal false 1 0, .ofNat 2⟩, ⟨.infinite false, .ofNat 1⟩]
  bounded := by decide +kernel
  increasing := by decide +kernel
  endsOpen := rfl

/-- Bounds and counts in two orders make the same buckets. -/
theorem ofNumbers_responseBuckets :
    ofNumbers [.infinite false, .ofDecimal false 5 (-1), .ofDecimal false 1 0] [1, 3, 2] = .ok responseBuckets ∧
      ofNumbers [.ofDecimal false 1 0, .infinite false, .ofDecimal false 5 (-1)] [2, 1, 3] = .ok responseBuckets ∧
      responseBuckets.cumulative? = some [.whole 3, .whole 5, .whole 6] := by
  obtain ⟨-, -, harranges⟩ :=
    ofNumbers_canonical [.infinite false, .ofDecimal false 5 (-1), .ofDecimal false 1 0] [1, 3, 2]
  have hmade : ofNumbers [.infinite false, .ofDecimal false 5 (-1), .ofDecimal false 1 0] [1, 3, 2] =
      .ok responseBuckets := ofNumbers_eq_ok_iff.2 ⟨by decide, by decide +kernel⟩
  exact ⟨hmade, (harranges _ hmade).canonical _ _ (by decide) (by decide +kernel), by decide +kernel⟩

end Buckets

end Telemetry
