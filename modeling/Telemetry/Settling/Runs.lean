import Telemetry.Settling.Merging

/-!
# Runs

A list consists of runs: chains, and stretches in which every element comes before the one in front of it,
which are chains when they are turned round. Short runs are made longer by putting the elements behind them
in their places.

## Main definitions

* `firstRun`: the first run of a list, turned round if need be
* `place`: an element put in its place in a chain
* `nextRun`: the first run of a list, with at least so many elements

## Main results

* `perm_nextRun`, `chained_nextRun`: runs lose no elements and are chains
* `firstRun_of_chained`: the first run of a chain is the chain
-/

namespace Telemetry

variable {α : Type} {before : α → α → Bool}

/-- The elements behind an element as long as each may follow the one in front of it, and the rest. -/
def stretch (ok : α → α → Bool) (a : α) : List α → List α × List α
  | [] => ([], [])
  | b :: rest =>
    if ok a b then
      let found := stretch ok b rest
      (b :: found.1, found.2)
    else
      ([], b :: rest)

theorem stretch_append (ok : α → α → Bool) (a : α) (xs : List α) :
    (stretch ok a xs).1 ++ (stretch ok a xs).2 = xs := by
  induction xs generalizing a with
  | nil => rfl
  | cons b rest ih =>
    unfold stretch
    split
    · simp [ih b]
    · rfl

theorem chained_stretch (ok : α → α → Bool) (a : α) (xs : List α) :
    Chained (fun a b => ok a b = true) (a :: (stretch ok a xs).1) := by
  fun_induction stretch ok a xs with
  | case1 a => exact chained_singleton a
  | case2 a b rest hok found ih => exact ⟨hok, ih⟩
  | case3 a b rest hok => exact chained_singleton a

/-- **The first run of a list**, and what is behind it. -/
def firstRun (before : α → α → Bool) : List α → List α × List α
  | [] => ([], [])
  | [a] => ([a], [])
  | a :: b :: rest =>
    if before b a then
      let found := stretch (fun p q => before q p) a (b :: rest)
      ((a :: found.1).reverse, found.2)
    else
      let found := stretch (fun p q => !before q p) a (b :: rest)
      (a :: found.1, found.2)

theorem perm_firstRun (before : α → α → Bool) (xs : List α) :
    ((firstRun before xs).1 ++ (firstRun before xs).2).Perm xs := by
  fun_cases firstRun before xs with
  | case1 => exact .refl _
  | case2 a => exact .refl _
  | case3 a b rest h found =>
    refine ((List.reverse_perm _).append_right _).trans ?_
    rw [List.cons_append, stretch_append]
  | case4 a b rest h found => rw [List.cons_append, stretch_append]

theorem chained_firstRun (hasymm : ∀ a b, before a b = true → before b a = false) (xs : List α) :
    Chained (Follows before) (firstRun before xs).1 := by
  fun_cases firstRun before xs with
  | case1 => exact chained_nil
  | case2 a => exact chained_singleton a
  | case3 a b rest h found =>
    have hfound := chained_stretch (fun p q => before q p) a (b :: rest)
    exact (hfound.imp fun p _ q _ hqp => hasymm q p hqp).reverse
  | case4 a b rest h found =>
    have hfound := chained_stretch (fun p q => !before q p) a (b :: rest)
    exact hfound.imp fun p _ q _ hqp => show before q p = false by simpa using hqp

theorem stretch_of_chained {a : α} {xs : List α} (h : Chained (Follows before) (a :: xs)) :
    stretch (fun p q => !before q p) a xs = (xs, []) := by
  induction xs generalizing a with
  | nil => rfl
  | cons b rest ih =>
    have hab : before b a = false := h.1
    simp [stretch, hab, ih h.tail]

theorem firstRun_of_chained {xs : List α} (h : Chained (Follows before) xs) :
    firstRun before xs = (xs, []) := by
  match xs, h with
  | [], _ => rfl
  | [a], _ => rfl
  | a :: b :: rest, h =>
    have hab : before b a = false := h.1
    simp [firstRun, hab, stretch_of_chained h]

/-! ## Short runs -/

/-- **An element put in its place**, which is found by halving. -/
def place (before : α → α → Bool) (run : List α) (a : α) : List α :=
  let cut := halve false (fun b => !before a b) run
  cut.1 ++ a :: cut.2

theorem perm_place (before : α → α → Bool) (run : List α) (a : α) :
    (place before run a).Perm (a :: run) := by
  have hcut := isCut_halve false (fun b => !before a b) run
  exact List.perm_middle.trans (.of_eq (congrArg (a :: ·) hcut.append))

theorem chained_place (hasymm : ∀ a b, before a b = true → before b a = false) {run : List α}
    (hrun : Chained (Follows before) run) (a : α) : Chained (Follows before) (place before run a) := by
  have hcut := isCut_halve false (fun b => !before a b) run
  rw [← hcut.append] at hrun
  obtain ⟨hfront, hback, _⟩ := chained_append.1 hrun
  refine chained_append.2 ⟨hfront, chained_cons.2 ⟨fun b hb => ?_, hback⟩, fun b hb c hc => ?_⟩
  · exact hasymm a b (by simpa using hcut.head b hb)
  · cases hc
    show before a b = false
    simpa using hcut.last b hb

/-- **The next run of a list**, of at least so many elements if there are so many. -/
def nextRun (before : α → α → Bool) (least : Nat) (xs : List α) : List α × List α :=
  let found := firstRun before xs
  let missing := least - found.1.length
  ((found.2.take missing).foldl (place before) found.1, found.2.drop missing)

theorem perm_foldl_place (before : α → α → Bool) (more run : List α) :
    (more.foldl (place before) run).Perm (run ++ more) := by
  induction more generalizing run with
  | nil => simp
  | cons a more ih =>
    exact (ih (place before run a)).trans
      (((perm_place before run a).append_right more).trans List.perm_middle.symm)

theorem perm_nextRun (before : α → α → Bool) (least : Nat) (xs : List α) :
    ((nextRun before least xs).1 ++ (nextRun before least xs).2).Perm xs := by
  refine ((perm_foldl_place before _ _).append_right _).trans ?_
  rw [List.append_assoc, nextRun, List.take_append_drop]
  exact perm_firstRun before xs

theorem chained_nextRun (hasymm : ∀ a b, before a b = true → before b a = false) (least : Nat)
    (xs : List α) : Chained (Follows before) (nextRun before least xs).1 := by
  have hplace (more run : List α) (hrun : Chained (Follows before) run) :
      Chained (Follows before) (more.foldl (place before) run) := by
    induction more generalizing run with
    | nil => exact hrun
    | cons a more ih => exact ih _ (chained_place hasymm hrun a)
  exact hplace _ _ (chained_firstRun hasymm xs)

/-- The next run of a list that is not empty is not empty. -/
theorem length_nextRun_lt (before : α → α → Bool) (least : Nat) (a : α) (xs : List α) :
    (nextRun before least (a :: xs)).2.length < (a :: xs).length := by
  have hrest : (firstRun before (a :: xs)).2.length ≤ xs.length := by
    cases xs with
    | nil => exact Nat.le_refl _
    | cons b xs =>
      have hlength (ok : α → α → Bool) : (stretch ok a (b :: xs)).2.length ≤ (b :: xs).length := by
        have := congrArg List.length (stretch_append ok a (b :: xs))
        rw [List.length_append] at this
        omega
      by_cases hba : before b a = true <;> simpa [firstRun, hba] using hlength _
  simp only [nextRun, List.length_drop, List.length_cons]
  omega

theorem nextRun_of_chained (least : Nat) {xs : List α} (h : Chained (Follows before) xs) :
    nextRun before least xs = (xs, []) := by
  simp [nextRun, firstRun_of_chained h]

end Telemetry
