import Telemetry.Arrangement
import Telemetry.Settling.Runs

/-!
# Settling

Where "comes before" is an order, a list can be arranged in one way only, ties apart. Where it is not, as
with timestamps that are no numbers and come neither before nor after anything, what becomes of a list
depends on the elements that are compared. Settling fixes these comparisons: it finds the runs of a list one
after the other and merges them, so that merges are balanced.

## Main definitions

* `settle`: a list as a chain
* `Stack`: runs that have not been merged yet

## Main results

* `perm_settle`, `chained_settle`: settling is a permutation and leads to a chain
* `settle_of_chained`: a chain is left alone
* `settle_eq_arrange`: of an order without ties, settling is arranging
-/

namespace Telemetry

-- Powers are those of whole numbers in the core library, whatever else is in scope.
attribute [local instance (2000)] instPowNat

variable {α : Type} {before : α → α → Bool}

/-! ## Balance -/

/-- The number of elements that a run shall have at least: about as many as leave a power of two of runs, and
no more than 64. -/
def leastRun (lost n : Nat) : Nat :=
  if n < 64 then n + lost else leastRun (max lost (n % 2)) (n / 2)
termination_by n

/-- The number of binary digits that two fractions have in common; it is small at a border in the middle of
the list. -/
def commonDigits (a b n : Nat) : Nat :=
  ((List.range (n.log2 + 2)).find? fun k => a * 2 ^ k / n != b * 2 ^ k / n).getD (n.log2 + 2)

/-! ## The stack -/

/-- **Runs that have not been merged yet**: the last one, and those in front of it, the nearest first, each
with the depth of the border behind it. -/
structure Stack (α : Type) where
  below : List (List α × Nat)
  top : List α
  patience : Nat

namespace Stack

def elements (s : Stack α) : List α :=
  s.below.flatMap (·.1) ++ s.top

/-- **Stacks of chains.** -/
def Settled (before : α → α → Bool) (s : Stack α) : Prop :=
  (∀ entry ∈ s.below, Chained (Follows before) entry.1) ∧ Chained (Follows before) s.top

/-- The last run merged with those in front of it that lie behind a deeper border. -/
def collapse (before : α → α → Bool) (depth : Nat) (top : List α) (patience : Nat) :
    List (List α × Nat) → Stack α
  | [] => ⟨[], top, patience⟩
  | entry :: below =>
    if depth < entry.2 then
      let merged := mergeRuns before patience entry.1 top
      collapse before depth merged.1 merged.2 below
    else
      ⟨entry :: below, top, patience⟩

/-- The depth of the border between the last run and a new one: what the middles of the two have in
common. -/
def depth (total : Nat) (s : Stack α) (run : List α) : Nat :=
  let start := (s.below.flatMap (·.1)).length
  commonDigits (2 * start + s.top.length) (2 * start + 2 * s.top.length + run.length) total

/-- **One more run.** -/
def push (before : α → α → Bool) (total : Nat) (s : Stack α) (run : List α) : Stack α :=
  let depth := s.depth total run
  let s := collapse before depth s.top s.patience s.below
  { s with below := (s.top, depth) :: s.below, top := run }

/-- All runs merged. The last run waits while those in front of it are shorter. -/
def mergeAll (before : α → α → Bool) (patience : Nat) (top : List α) : List (List α) → List α
  | [] => top
  | [run] => (mergeRuns before patience run top).1
  | run :: earlier :: below =>
    if earlier.length < top.length then
      let merged := mergeRuns before patience earlier run
      mergeAll before merged.2 top (merged.1 :: below)
    else
      let merged := mergeRuns before patience run top
      mergeAll before merged.2 merged.1 (earlier :: below)
termination_by below => below.length

/-- **The elements of a stack as one chain.** -/
def finish (before : α → α → Bool) (s : Stack α) : List α :=
  mergeAll before s.patience s.top (s.below.map (·.1))

/-! ### Nothing is lost -/

theorem perm_collapse (before : α → α → Bool) (depth : Nat) (top : List α) (patience : Nat)
    (below : List (List α × Nat)) :
    (collapse before depth top patience below).elements.Perm (below.flatMap (·.1) ++ top) := by
  induction below generalizing top patience with
  | nil => exact .refl _
  | cons entry below ih =>
    unfold collapse
    split
    · refine (ih _ _).trans ?_
      rw [List.flatMap_cons]
      refine ((perm_mergeRuns before patience entry.1 top).append_left _).trans ?_
      rw [← List.append_assoc]
      exact List.perm_append_comm.append_right top
    · exact .refl _

theorem perm_push (before : α → α → Bool) (total : Nat) (s : Stack α) (run : List α) :
    (s.push before total run).elements.Perm (s.elements ++ run) := by
  have hperm := perm_collapse before (s.depth total run) s.top s.patience s.below
  refine List.Perm.append_right run ?_
  exact List.perm_append_comm.trans hperm

theorem perm_mergeAll (before : α → α → Bool) (patience : Nat) (top : List α)
    (below : List (List α)) : (mergeAll before patience top below).Perm (below.flatten ++ top) := by
  fun_induction mergeAll before patience top below with
  | case1 => exact .refl _
  | case2 patience top run => simpa using perm_mergeRuns before patience run top
  | case3 patience top run earlier below h merged ih =>
    refine ih.trans (List.Perm.append_right top ?_)
    simp only [List.flatten_cons, ← List.append_assoc]
    exact ((perm_mergeRuns before patience earlier run).trans List.perm_append_comm).append_right _
  | case4 patience top run earlier below h merged ih =>
    refine ih.trans ?_
    simp only [List.flatten_cons, List.append_assoc]
    refine ((perm_mergeRuns before patience run top).append_left _ |>.append_left _).trans ?_
    rw [← List.append_assoc, ← List.append_assoc, ← List.append_assoc, ← List.append_assoc]
    refine List.Perm.append_right top ?_
    rw [List.append_assoc run]
    exact List.perm_append_comm

theorem perm_finish (before : α → α → Bool) (s : Stack α) : (s.finish before).Perm s.elements := by
  have h := perm_mergeAll before s.patience s.top (s.below.map (·.1))
  rwa [List.flatten_eq_flatMap, List.flatMap_map] at h

/-! ### Chains stay chains -/

variable (hasymm : ∀ a b, before a b = true → before b a = false)

include hasymm

theorem settled_collapse (depth : Nat) (patience : Nat) {top : List α}
    {below : List (List α × Nat)} (h : Settled before ⟨below, top, patience⟩) :
    (collapse before depth top patience below).Settled before := by
  induction below generalizing top patience with
  | nil => exact h
  | cons entry below ih =>
    unfold collapse
    split
    · refine ih _ ⟨fun e he => h.1 e (List.mem_cons_of_mem _ he), ?_⟩
      exact chained_mergeRuns hasymm patience (h.1 entry List.mem_cons_self) h.2
    · exact h

theorem settled_push (total : Nat) {s : Stack α} (h : s.Settled before) {run : List α}
    (hrun : Chained (Follows before) run) : (s.push before total run).Settled before := by
  obtain ⟨hbelow, htop⟩ := settled_collapse hasymm (s.depth total run) s.patience h
  refine ⟨fun e he => ?_, hrun⟩
  rcases List.mem_cons.1 he with rfl | he
  · exact htop
  · exact hbelow e he

theorem chained_mergeAll (patience : Nat) {top : List α} {below : List (List α)}
    (htop : Chained (Follows before) top) (hbelow : ∀ run ∈ below, Chained (Follows before) run) :
    Chained (Follows before) (mergeAll before patience top below) := by
  fun_induction mergeAll before patience top below with
  | case1 => exact htop
  | case2 patience top run =>
    exact chained_mergeRuns hasymm patience (hbelow run List.mem_cons_self) htop
  | case3 patience top run earlier below h merged ih =>
    refine ih htop fun other hother => ?_
    rcases List.mem_cons.1 hother with rfl | hother
    · exact chained_mergeRuns hasymm patience (hbelow earlier (by simp)) (hbelow run (by simp))
    · exact hbelow other (by simp [hother])
  | case4 patience top run earlier below h merged ih =>
    refine ih (chained_mergeRuns hasymm patience (hbelow run (by simp)) htop) fun other hother => ?_
    exact hbelow other (List.mem_cons_of_mem _ hother)

theorem chained_finish {s : Stack α} (h : s.Settled before) :
    Chained (Follows before) (s.finish before) := by
  refine chained_mergeAll hasymm s.patience h.2 fun run hrun => ?_
  obtain ⟨entry, hentry, rfl⟩ := List.mem_map.1 hrun
  exact h.1 entry hentry

end Stack

/-! ## Settling -/

/-- The runs of the rest of a list put on a stack, and merged at the end. -/
def settleRest (before : α → α → Bool) (least total : Nat) (s : Stack α) (rest : List α) : List α :=
  match rest with
  | [] => s.finish before
  | a :: rest =>
    let next := nextRun before least (a :: rest)
    settleRest before least total (s.push before total next.1) next.2
termination_by rest.length
decreasing_by exact length_nextRun_lt before least a rest

/-- **A list as a chain.** -/
def settle (before : α → α → Bool) (xs : List α) : List α :=
  let least := leastRun 0 xs.length
  let first := nextRun before least xs
  settleRest before least xs.length ⟨[], first.1, Gait.worthWhile⟩ first.2

theorem perm_settleRest (before : α → α → Bool) (least total : Nat) (s : Stack α) (rest : List α) :
    (settleRest before least total s rest).Perm (s.elements ++ rest) := by
  fun_induction settleRest before least total s rest with
  | case1 s => simpa using s.perm_finish before
  | case2 s a rest next ih =>
    refine ih.trans (((s.perm_push before total next.1).append_right next.2).trans ?_)
    rw [List.append_assoc]
    exact (perm_nextRun before least (a :: rest)).append_left _

theorem perm_settle (before : α → α → Bool) (xs : List α) : (settle before xs).Perm xs :=
  (perm_settleRest before _ _ _ _).trans (perm_nextRun before _ xs)

theorem chained_settleRest (hasymm : ∀ a b, before a b = true → before b a = false) (least total : Nat)
    {s : Stack α} (h : s.Settled before) (rest : List α) :
    Chained (Follows before) (settleRest before least total s rest) := by
  fun_induction settleRest before least total s rest with
  | case1 s => exact Stack.chained_finish hasymm h
  | case2 s a rest next ih =>
    exact ih (Stack.settled_push hasymm total h (chained_nextRun hasymm least (a :: rest)))

theorem chained_settle (hasymm : ∀ a b, before a b = true → before b a = false) (xs : List α) :
    Chained (Follows before) (settle before xs) :=
  chained_settleRest hasymm _ _ ⟨fun _ he => absurd he List.not_mem_nil, chained_nextRun hasymm _ xs⟩ _

theorem settle_of_chained {xs : List α} (h : Chained (Follows before) xs) : settle before xs = xs := by
  simp [settle, nextRun_of_chained _ h, settleRest, Stack.finish, Stack.mergeAll]

@[simp] theorem mem_settle {a : α} {xs : List α} : a ∈ settle before xs ↔ a ∈ xs :=
  (perm_settle before xs).mem_iff

/-! ## Orders -/

variable {cmp : α → α → Ordering}

/-- If elements come before one another as an order says, chains are ordered. -/
theorem Chained.pairwise_isLE [Std.TransCmp cmp] {xs : List α}
    (hbefore : ∀ a ∈ xs, ∀ b ∈ xs, before a b = (cmp a b == .lt))
    (h : Chained (Follows before) xs) : xs.Pairwise fun a b => (cmp a b).isLE = true := by
  refine Chained.pairwise (fun a b c => Std.TransCmp.isLE_trans) (h.imp fun a ha b hb hab => ?_)
  have hba : before b a = false := hab
  have hswap : cmp a b = (cmp b a).swap := Std.OrientedCmp.eq_swap
  rw [hbefore b hb a ha] at hba
  rw [hswap]
  revert hba
  cases cmp b a <;> simp

/-- Of an order in which only equal elements tie, settling is arranging. -/
theorem settle_eq_arrange [Std.TransCmp cmp] {xs : List α}
    (hasymm : ∀ a b, before a b = true → before b a = false)
    (hbefore : ∀ a ∈ xs, ∀ b ∈ xs, before a b = (cmp a b == .lt))
    (heq : ∀ a ∈ xs, ∀ b ∈ xs, cmp a b = .eq → a = b) : settle before xs = arrange cmp xs := by
  have hsettled : (settle before xs).Pairwise fun a b => (cmp a b).isLE = true :=
    (chained_settle hasymm xs).pairwise_isLE fun a ha b hb =>
      hbefore a (mem_settle.1 ha) b (mem_settle.1 hb)
  rw [← arrange_of_pairwise hsettled]
  refine arrange_eq_of_perm (fun a ha b hb => ?_) (perm_settle before xs)
  exact heq a (mem_settle.1 ha) b (mem_settle.1 hb)

end Telemetry
