import Telemetry.Settling.Chain
import Telemetry.Settling.Halving

/-!
# Merging

Two chains are merged by taking the element in front of the one or of the other. While the lists take turns
they are compared element by element; when one of them gives several elements in a row, the number of its
elements that come next is found by galloping.

## Main definitions

* `Follows`: the elements that may follow another
* `merge`: the elements of two lists, of which the first is known to hold the element that comes last
* `mergeRuns`: the elements of two chains as one chain

## Main results

* `perm_mergeRuns`: merging loses nothing and adds nothing
* `chained_mergeRuns`: chains are merged to a chain
-/

namespace Telemetry

variable {α : Type} {before wins : α → α → Bool}

/-- **May follow**: does not come before. -/
def Follows (before : α → α → Bool) (a b : α) : Prop :=
  before b a = false

instance (a b : α) : Decidable (Follows before a b) :=
  inferInstanceAs (Decidable (_ = _))

/-- Whether lists are compared element by element, having given so many elements in a row, or one of them is
about to gallop, the other having galloped over so many elements in the same round. -/
inductive Pace where
  | counting (first second : Nat)
  | galloping (onFirst : Bool) (moved : Option Nat)

/-- **The state of a merge**: its pace, and how many elements in a row make it gallop. A merge that ends
hands on the number that held before the last round. -/
structure Gait where
  pace : Pace
  handedOn : Nat
  patience : Nat

namespace Gait

def start (patience : Nat) : Gait :=
  ⟨.counting 0 0, patience, patience⟩

/-- The gait after so many elements in a row from one of the lists. -/
def count (startsOnFirst : Bool) (patience first second : Nat) : Gait :=
  if patience ≤ max first second then ⟨.galloping startsOnFirst none, patience, patience⟩
  else ⟨.counting first second, patience, patience⟩

/-- The number of elements that make galloping worth while. -/
def worthWhile : Nat := 7

/-- The gait after galloping over so many elements. In each round both lists gallop. As long as it is worth
while galloping gets easier; when it is not, elements are counted again and galloping gets harder. -/
def turn (onFirst : Bool) (patience : Nat) (earlier : Option Nat) (moved : Nat) : Gait :=
  match earlier with
  | none => ⟨.galloping (!onFirst) (some moved), patience, patience⟩
  | some earlier =>
    if worthWhile ≤ max earlier moved then
      ⟨.galloping (!onFirst) none, patience, max 1 (patience - 1)⟩
    else
      ⟨.counting 0 0, patience, patience + 1⟩

end Gait

/-- **Merging** where an element of the second list may win against one of the first. The last element of
the first list is not compared: it comes last. Lists that are read backwards start galloping on the other
list. -/
def merge (wins : α → α → Bool) (backwards : Bool) (gait : Gait) (first second : List α) :
    List α × Nat :=
  match first, second with
  | x :: x' :: first, y :: second =>
    match gait.pace with
    | .counting m n =>
      if wins y x then
        let merged := merge wins backwards (.count (!backwards) gait.patience 0 (n + 1))
          (x :: x' :: first) second
        (y :: merged.1, merged.2)
      else
        let merged := merge wins backwards (.count (!backwards) gait.patience (m + 1) 0)
          (x' :: first) (y :: second)
        (x :: merged.1, merged.2)
    | .galloping true moved =>
      let cut := gallop backwards (fun a => !wins y a) (x :: x' :: first)
      let merged := merge wins backwards (.turn true gait.patience moved cut.1.length) cut.2 second
      (cut.1 ++ y :: merged.1, merged.2)
    | .galloping false moved =>
      let cut := gallop backwards (fun b => wins b x) (y :: second)
      let merged := merge wins backwards (.turn false gait.patience moved cut.1.length)
        (x' :: first) cut.2
      (cut.1 ++ x :: merged.1, merged.2)
  | first, second => (second ++ first, gait.handedOn)
termination_by first.length + second.length
decreasing_by
  all_goals simp only [List.length_cons]
  · omega
  · omega
  · have := (isCut_gallop backwards (fun a => !wins y a) (x :: x' :: first)).length
    simp only [List.length_cons] at this
    omega
  · have := (isCut_gallop backwards (fun b => wins b x) (y :: second)).length
    simp only [List.length_cons] at this
    omega

theorem perm_merge (wins : α → α → Bool) (backwards : Bool) (gait : Gait) (first second : List α) :
    (merge wins backwards gait first second).1.Perm (first ++ second) := by
  fun_induction merge wins backwards gait first second with
  | case1 gait x x' first y second m n hpace hwins merged ih =>
    exact (ih.cons y).trans List.perm_middle.symm
  | case2 gait x x' first y second m n hpace hwins merged ih => exact ih.cons x
  | case3 gait x x' first y second moved hpace cut merged ih =>
    have hcut := (isCut_gallop backwards (fun a => !wins y a) (x :: x' :: first)).append
    rw [← hcut, List.append_assoc]
    exact ((ih.cons y).trans List.perm_middle.symm).append_left _
  | case4 gait x x' first y second moved hpace cut merged ih =>
    have hcut := (isCut_gallop backwards (fun b => wins b x) (y :: second)).append
    rw [← hcut, List.cons_append]
    refine List.perm_middle.trans ((List.Perm.append_left _ ih).trans ?_ |>.cons x)
    rw [← List.append_assoc, ← List.append_assoc]
    exact List.perm_append_comm.append_right _
  | case5 => exact List.perm_append_comm

/-- The last element of the end of a list is the last element of the list. -/
theorem mem_getLast?_append_right (xs : List α) {ys : List α} {a : α} (h : a ∈ ys.getLast?) :
    a ∈ (xs ++ ys).getLast? := by
  rw [List.getLast?_append, Option.mem_def.1 h]
  rfl

/-- The last element behind an element is that of the rest, or the element if there is no rest. -/
theorem mem_getLast?_append_cons (xs : List α) {ys : List α} {a b : α}
    (h : b ∈ (xs ++ a :: ys).getLast?) : b ∈ ys.getLast? ∨ ys = [] ∧ b = a := by
  cases ys with
  | nil => exact .inr ⟨rfl, by simpa [List.getLast?_append, eq_comm] using h⟩
  | cons c ys => exact .inl (by simpa [List.getLast?_append, List.getLast?_cons] using h)

/-- The merged list ends with the last element of one of the lists. -/
theorem mem_getLast?_merge (wins : α → α → Bool) (backwards : Bool) (gait : Gait)
    (first second : List α) (a : α)
    (h : a ∈ (merge wins backwards gait first second).1.getLast?) :
    a ∈ first.getLast? ∨ a ∈ second.getLast? := by
  have hnil (gait : Gait) (xs ys : List α) (h : (merge wins backwards gait xs ys).1 = []) :
      xs = [] ∧ ys = [] := by
    have hperm := perm_merge wins backwards gait xs ys
    rw [h] at hperm
    exact List.append_eq_nil_iff.1 (List.nil_perm.1 hperm)
  fun_induction merge wins backwards gait first second with
  | case1 gait x x' first y second m n hpace hwins merged ih =>
    rcases mem_getLast?_append_cons [] h with h | ⟨hempty, rfl⟩
    · exact (ih h).imp_right (mem_getLast?_append_right [y])
    · exact absurd (hnil _ _ _ hempty).1 (by simp)
  | case2 gait x x' first y second m n hpace hwins merged ih =>
    rcases mem_getLast?_append_cons [] h with h | ⟨hempty, rfl⟩
    · exact (ih h).imp_left (mem_getLast?_append_right [x])
    · exact absurd (hnil _ _ _ hempty).1 (by simp)
  | case3 gait x x' first y second moved hpace cut merged ih =>
    have hcut := (isCut_gallop backwards (fun a => !wins y a) (x :: x' :: first)).append
    rcases mem_getLast?_append_cons _ h with h | ⟨hempty, rfl⟩
    · rw [← hcut]
      exact (ih h).imp (mem_getLast?_append_right _) (mem_getLast?_append_right [y])
    · rw [(hnil _ _ _ hempty).2]
      exact .inr rfl
  | case4 gait x x' first y second moved hpace cut merged ih =>
    have hcut := (isCut_gallop backwards (fun b => wins b x) (y :: second)).append
    rcases mem_getLast?_append_cons _ h with h | ⟨hempty, rfl⟩
    · rw [← hcut]
      exact (ih h).imp (mem_getLast?_append_right [x]) (mem_getLast?_append_right _)
    · exact absurd (hnil _ _ _ hempty).1 (by simp)
  | case5 gait first second hne =>
    rw [List.getLast?_append] at h
    cases hlast : first.getLast? with
    | none => exact .inr (by simpa [hlast] using h)
    | some b => exact .inl (by simpa [hlast] using h)

/-- An element is put at a border: elements that pass are followed by it, and those that fail follow it. -/
theorem IsCut.chained {ok : α → α → Prop} {passes : α → Bool} {xs : List α}
    {cut : List α × List α} (hcut : IsCut passes xs cut) {p y : α} (hxs : Chained ok (p :: xs))
    (hpy : ok p y) (hpasses : ∀ a, passes a = true → ok a y)
    (hfails : ∀ a, passes a = false → ok y a) :
    Chained ok (p :: cut.1 ++ [y]) ∧ Chained ok (y :: cut.2) := by
  rw [← hcut.append, ← List.cons_append] at hxs
  obtain ⟨hfront, hrest, _⟩ := chained_append.1 hxs
  constructor
  · refine chained_append.2 ⟨hfront, chained_singleton y, fun a ha b hb => ?_⟩
    cases hb
    rcases mem_getLast?_append_cons [] ha with ha | ⟨_, rfl⟩
    · exact hpasses a (hcut.last a ha)
    · exact hpy
  · exact chained_cons.2 ⟨fun a ha => hfails a (hcut.head a ha), hrest⟩

/-- The merge of chains is a chain, also behind an element that both may follow. -/
theorem chained_merge (hasymm : ∀ a b, wins a b = true → wins b a = false) (backwards : Bool)
    (gait : Gait) (first second : List α) (p : α)
    (hfirst : Chained (Follows wins) (p :: first)) (hsecond : Chained (Follows wins) (p :: second))
    (hlast : ∀ a ∈ first.getLast?, ∀ b ∈ second.getLast?, Follows wins b a) :
    Chained (Follows wins) (p :: (merge wins backwards gait first second).1) := by
  fun_induction merge wins backwards gait first second generalizing p with
  | case1 gait x x' first y second m n hpace hwins merged ih =>
    obtain ⟨hpy, hsecond⟩ := chained_cons.1 hsecond
    refine chained_cons.2 ⟨fun b hb => hpy b hb, ih y ?_ hsecond ?_⟩
    · exact chained_cons.2 ⟨fun b hb => by
        cases hb
        exact hasymm y x hwins, hfirst.tail⟩
    · exact fun a ha b hb => hlast a ha b (mem_getLast?_append_right [y] hb)
  | case2 gait x x' first y second m n hpace hwins merged ih =>
    obtain ⟨hpx, hfirst⟩ := chained_cons.1 hfirst
    refine chained_cons.2 ⟨fun b hb => hpx b hb, ih x hfirst ?_ ?_⟩
    · exact chained_cons.2 ⟨fun b hb => by
        cases hb
        exact Bool.eq_false_iff.2 hwins, hsecond.tail⟩
    · exact fun a ha b hb => hlast a (mem_getLast?_append_right [x] ha) b hb
  | case3 gait x x' first y second moved hpace cut merged ih =>
    have hcut := isCut_gallop backwards (fun a => !wins y a) (x :: x' :: first)
    obtain ⟨hpy, hsecond⟩ := chained_cons.1 hsecond
    obtain ⟨hfront, hrest⟩ := hcut.chained hfirst (hpy y rfl)
      (fun a ha => show wins y a = false by simpa using ha)
      (fun a ha => hasymm y a (by simpa using ha))
    rw [← List.cons_append, chained_append_cons]
    refine ⟨hfront, ih y hrest hsecond fun a ha b hb => ?_⟩
    refine hlast a ?_ b (mem_getLast?_append_right [y] hb)
    rw [← hcut.append]
    exact mem_getLast?_append_right _ ha
  | case4 gait x x' first y second moved hpace cut merged ih =>
    have hcut := isCut_gallop backwards (fun b => wins b x) (y :: second)
    obtain ⟨hpx, hfirst⟩ := chained_cons.1 hfirst
    obtain ⟨hfront, hrest⟩ := hcut.chained hsecond (hpx x rfl) (fun b hb => hasymm b x hb)
      (fun b hb => hb)
    rw [← List.cons_append, chained_append_cons]
    refine ⟨hfront, ih x hfirst hrest fun a ha b hb => ?_⟩
    refine hlast a (mem_getLast?_append_right [x] ha) b ?_
    rw [← hcut.append]
    exact mem_getLast?_append_right _ hb
  | case5 gait first second hne =>
    rw [← List.cons_append, chained_append]
    refine ⟨hsecond, hfirst.tail, fun b hb a ha => ?_⟩
    -- At most one element is left in the first list, or none in the second.
    match first, second, hne with
    | [], _, _ => cases ha
    | _ :: _, [], _ =>
      cases hb
      exact (chained_cons.1 hfirst).1 a ha
    | [x], y :: second, _ => exact hlast a ha b hb
    | x :: x' :: first, y :: second, hne => exact absurd rfl (hne x x' first y second rfl)

/-! ## Runs -/

/-- The end of a list from its last border on, tested from behind. -/
def cutBehind (passes : α → Bool) (xs : List α) : List α × List α :=
  let cut := gallop true (fun a => !passes a) xs.reverse
  (cut.2.reverse, cut.1.reverse)

theorem isCut_cutBehind (passes : α → Bool) (xs : List α) : IsCut passes xs (cutBehind passes xs) := by
  have hcut := isCut_gallop true (fun a => !passes a) xs.reverse
  refine ⟨?_, fun a ha => ?_, fun a ha => ?_⟩
  · rw [cutBehind, ← List.reverse_append, hcut.append, List.reverse_reverse]
  · rw [cutBehind, List.getLast?_reverse] at ha
    simpa using hcut.head a ha
  · rw [cutBehind, List.head?_reverse] at ha
    simpa using hcut.last a ha

/-- Chains whose ends interleave, merged from the end of the shorter one. The first element of the second
list comes first of all, and the last element of the first list comes last. -/
def mergeInterleaved (before : α → α → Bool) (patience : Nat) (left right : List α) :
    List α × Nat :=
  if left.length ≤ right.length then
    match right with
    | [] => (left, patience)
    | y :: right =>
      let merged := merge before false (.start patience) left right
      (y :: merged.1, merged.2)
  else
    match left.reverse with
    | [] => (right, patience)
    | x :: left =>
      let merged := merge (fun a b => before b a) true (.start patience) right.reverse left
      ((x :: merged.1).reverse, merged.2)

theorem perm_mergeInterleaved (before : α → α → Bool) (patience : Nat) (left right : List α) :
    (mergeInterleaved before patience left right).1.Perm (left ++ right) := by
  unfold mergeInterleaved
  split
  · cases right with
    | nil => simp
    | cons y right => exact ((perm_merge ..).cons y).trans List.perm_middle.symm
  · split
    · next h => simp [List.reverse_eq_nil_iff.1 h]
    · next x rest h =>
      have hleft : left = rest.reverse ++ [x] := by
        rw [← List.reverse_reverse left, h, List.reverse_cons]
      refine (List.reverse_perm _).trans (((perm_merge ..).cons x).trans ?_)
      rw [hleft, List.append_assoc]
      refine (List.perm_append_comm.cons x).trans ?_
      exact List.perm_middle.symm.trans ((List.reverse_perm rest).symm.append
        ((List.reverse_perm right).cons x))

/-- The merged list starts and ends with an element at the same end of one of the lists. -/
theorem ends_mergeInterleaved (before : α → α → Bool) (patience : Nat) (left right : List α) :
    (∀ a ∈ (mergeInterleaved before patience left right).1.head?,
        a ∈ left.head? ∨ a ∈ right.head?) ∧
      ∀ a ∈ (mergeInterleaved before patience left right).1.getLast?,
        a ∈ left.getLast? ∨ a ∈ right.getLast? := by
  have hends {y : α} {xs ys : List α} {merged : List α}
      (hmerged : ∀ a ∈ merged.getLast?, a ∈ xs.getLast? ∨ a ∈ ys.getLast?)
      (hempty : merged = [] → ys = []) (a : α) (ha : a ∈ (y :: merged).getLast?) :
      a ∈ xs.getLast? ∨ a ∈ (y :: ys).getLast? := by
    rcases mem_getLast?_append_cons [] ha with ha | ⟨hnil, rfl⟩
    · exact (hmerged a ha).imp_right (mem_getLast?_append_right [y])
    · rw [hempty hnil]
      exact .inr rfl
  have hnil {wins : α → α → Bool} {backwards : Bool} {gait : Gait} {xs ys : List α}
      (h : (merge wins backwards gait xs ys).1 = []) : ys = [] := by
    have hperm := perm_merge wins backwards gait xs ys
    rw [h] at hperm
    exact (List.append_eq_nil_iff.1 (List.nil_perm.1 hperm)).2
  unfold mergeInterleaved
  split
  · cases right with
    | nil => exact ⟨fun a ha => .inl ha, fun a ha => .inl ha⟩
    | cons y right =>
      exact ⟨fun a ha => .inr ha, hends (mem_getLast?_merge _ _ _ _ _) hnil⟩
  · split
    · exact ⟨fun a ha => .inr ha, fun a ha => .inr ha⟩
    · next x rest h =>
      have hleft : left.head? = (x :: rest).getLast? := by rw [← h, List.getLast?_reverse]
      have hlast : left.getLast? = some x := by rw [← List.head?_reverse, h]; rfl
      constructor
      · intro a ha
        rw [List.head?_reverse] at ha
        rw [hleft, ← List.getLast?_reverse]
        exact (hends (mem_getLast?_merge _ _ _ _ _) hnil a ha).symm
      · intro a ha
        rw [List.getLast?_reverse] at ha
        rw [hlast]
        exact .inl ha

/-- Chains are merged to a chain if the first element of the second list comes before that of the first,
and the last element of the second before that of the first. -/
theorem chained_mergeInterleaved (hasymm : ∀ a b, before a b = true → before b a = false)
    (patience : Nat) {left right : List α} (hleft : Chained (Follows before) left)
    (hright : Chained (Follows before) right)
    (hhead : ∀ a ∈ left.head?, ∀ b ∈ right.head?, before b a = true)
    (hlast : ∀ a ∈ left.getLast?, ∀ b ∈ right.getLast?, before b a = true) :
    Chained (Follows before) (mergeInterleaved before patience left right).1 := by
  unfold mergeInterleaved
  split
  · cases right with
    | nil => exact hleft
    | cons y right =>
      refine chained_merge hasymm false _ left right y ?_ hright fun a ha b hb => ?_
      · exact chained_cons.2 ⟨fun a ha => hasymm y a (hhead a ha y rfl), hleft⟩
      · exact hasymm b a (hlast a ha b (mem_getLast?_append_right [y] hb))
  · split
    · exact hright
    · next x rest h =>
      have hback : Chained (Follows fun a b => before b a) (x :: rest) := h ▸ hleft.reverse
      have hfirst : left.head? = (x :: rest).getLast? := by rw [← h, List.getLast?_reverse]
      have hfinal : left.getLast? = some x := by rw [← List.head?_reverse, h]; rfl
      refine (show Chained (Follows fun a b => before b a) _ from ?_).reverse
      refine chained_merge (fun a b => hasymm b a) true _ right.reverse rest x ?_ hback ?_
      · refine chained_cons.2 ⟨fun b hb => ?_, hright.reverse⟩
        rw [List.head?_reverse] at hb
        exact hasymm b x (hlast x (by rw [hfinal]; rfl) b hb)
      · intro b hb a ha
        rw [List.getLast?_reverse] at hb
        refine hasymm b a (hhead a ?_ b hb)
        rw [hfirst]
        exact mem_getLast?_append_right [x] ha

/-- **The elements of two chains as one chain**: what stands in front of or behind both stays where it
is. -/
def mergeRuns (before : α → α → Bool) (patience : Nat) (left right : List α) : List α × Nat :=
  match right with
  | [] => (left, patience)
  | y :: _ =>
    let front := gallop false (fun a => !before y a) left
    match front.2.getLast? with
    | none => (left ++ right, patience)
    | some last =>
      let back := cutBehind (fun b => before b last) right
      let merged := mergeInterleaved before patience front.2 back.1
      (front.1 ++ (merged.1 ++ back.2), merged.2)

theorem perm_mergeRuns (before : α → α → Bool) (patience : Nat) (left right : List α) :
    (mergeRuns before patience left right).1.Perm (left ++ right) := by
  unfold mergeRuns
  split
  · simp
  · next y rest =>
    have hfront := isCut_gallop false (fun a => !before y a) left
    dsimp only
    split
    · exact .refl _
    · next last hlast =>
      have hback := isCut_cutBehind (fun b => before b last) (y :: rest)
      have hperm := perm_mergeInterleaved before patience
        (gallop false (fun a => !before y a) left).2 (cutBehind (fun b => before b last) (y :: rest)).1
      refine ((hperm.append_right _).append_left _).trans ?_
      rw [List.append_assoc, hback.append, ← List.append_assoc, hfront.append]

theorem chained_mergeRuns (hasymm : ∀ a b, before a b = true → before b a = false)
    (patience : Nat) {left right : List α} (hleft : Chained (Follows before) left)
    (hright : Chained (Follows before) right) :
    Chained (Follows before) (mergeRuns before patience left right).1 := by
  unfold mergeRuns
  split
  · exact hleft
  · next y rest =>
    have hfront := isCut_gallop false (fun a => !before y a) left
    generalize gallop false (fun a => !before y a) left = front at hfront
    dsimp only
    split
    · next hlast =>
      have hempty : front.2 = [] := List.getLast?_eq_none_iff.1 hlast
      have hall : front.1 = left := by simpa [hempty] using hfront.append
      refine chained_append.2 ⟨hleft, hright, fun a ha b hb => ?_⟩
      cases hb
      show before y a = false
      simpa using hfront.last a (hall ▸ ha)
    · next last hlast =>
      have hback := isCut_cutBehind (fun b => before b last) (y :: rest)
      generalize cutBehind (fun b => before b last) (y :: rest) = back at hback
      rw [← hfront.append] at hleft
      rw [← hback.append] at hright
      obtain ⟨hfront₁, hfront₂, hfrontLink⟩ := chained_append.1 hleft
      obtain ⟨hback₁, hback₂, hbackLink⟩ := chained_append.1 hright
      have hy : ∀ b ∈ back.1.head?, b = y := fun b hb => by
        have := congrArg List.head? hback.append
        rw [List.head?_append, Option.mem_def.1 hb] at this
        simpa using this
      obtain ⟨hstart, hend⟩ := ends_mergeInterleaved before patience front.2 back.1
      have hmerged := chained_mergeInterleaved hasymm patience hfront₂ hback₁
        (fun a ha b hb => hy b hb ▸ by simpa using hfront.head a ha)
        (fun a ha b hb => by
          rw [Option.mem_def.1 ha] at hlast
          cases hlast
          exact hback.last b hb)
      have hperm := perm_mergeInterleaved before patience front.2 back.1
      generalize (mergeInterleaved before patience front.2 back.1).1 = merged at hstart hend hmerged hperm
      have hnonempty : merged ≠ [] := by
        rintro rfl
        have := (List.append_eq_nil_iff.1 (List.nil_perm.1 hperm)).1
        simp [this] at hlast
      refine chained_append.2 ⟨hfront₁, chained_append.2 ⟨hmerged, hback₂, fun a ha b hb => ?_⟩,
        fun a ha b hb => ?_⟩
      · rcases hend a ha with ha | ha
        · rw [Option.mem_def.1 ha] at hlast
          cases hlast
          exact hback.head b hb
        · exact hbackLink a ha b hb
      · have hb : b ∈ merged.head? := by
          cases merged with
          | nil => exact absurd rfl hnonempty
          | cons c merged => exact hb
        rcases hstart b hb with hb | hb
        · exact hfrontLink a ha b hb
        · rw [hy b hb]
          show before y a = false
          simpa using hfront.last a ha

end Telemetry
