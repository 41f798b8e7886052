/-!
# Cutting lists by halving

A list in which the elements that pass a test stand in front of those that fail is cut at the border by
testing few of its elements. Where passing and failing elements are mixed there are several borders, and
which of them is found depends on the elements that are tested.

## Main definitions

* `IsCut`: the borders of a list
* `halve`: the border that is found by halving
* `gallop`: the border that is found by testing at growing distances first

## Main results

* `isCut_halve`, `isCut_gallop`: what is found is a border
-/

namespace Telemetry

variable {α : Type} {passes : α → Bool} {xs : List α}

/-- **Where a list may be cut**: behind an element that passes, or in front of all, and in front of an
element that fails, or behind all. -/
structure IsCut (passes : α → Bool) (xs : List α) (cut : List α × List α) : Prop where
  append : cut.1 ++ cut.2 = xs
  last : ∀ a ∈ cut.1.getLast?, passes a = true
  head : ∀ a ∈ cut.2.head?, passes a = false

theorem IsCut.length (h : IsCut passes xs cut) : cut.1.length + cut.2.length = xs.length := by
  rw [← h.append, List.length_append]

/-- A border behind an element that passes is a border of the whole list. -/
theorem IsCut.prepend {whole front : List α} {probe : α} (hwhole : whole = front ++ probe :: xs)
    (hprobe : passes probe = true) (h : IsCut passes xs cut) :
    IsCut passes whole (front ++ probe :: cut.1, cut.2) where
  append := by simp [hwhole, ← h.append]
  last a ha := by
    have hlast := h.last
    cases hcut : cut.1.getLast? with
    | none =>
      have hempty : cut.1 = [] := List.getLast?_eq_none_iff.1 hcut
      simp only [hempty, List.getLast?_append, List.getLast?_singleton, Option.some_or,
        Option.mem_some_iff] at ha
      exact ha ▸ hprobe
    | some b =>
      simp only [List.getLast?_append, List.getLast?_cons, hcut, Option.getD_some, Option.some_or,
        Option.mem_some_iff] at ha
      exact ha ▸ hlast b (by simp [hcut])
  head := h.head

/-- A border in front of an element that fails is a border of the whole list. -/
theorem IsCut.extend {whole back : List α} {probe : α} (hwhole : whole = xs ++ probe :: back)
    (hprobe : passes probe = false) (h : IsCut passes xs cut) :
    IsCut passes whole (cut.1, cut.2 ++ probe :: back) where
  append := by simp [hwhole, ← h.append, List.append_assoc]
  last := h.last
  head a ha := by
    have hhead := h.head
    cases hcut : cut.2.head? with
    | none =>
      have hempty : cut.2 = [] := List.head?_eq_none_iff.1 hcut
      simp only [hempty, List.nil_append, List.head?_cons, Option.mem_some_iff] at ha
      exact ha ▸ hprobe
    | some b =>
      simp only [List.head?_append, hcut, Option.some_or, Option.mem_some_iff] at ha
      exact ha ▸ hhead b (by simp [hcut])

/-- **Halving**: the element in the middle is tested, and then one half is cut. Of two middle elements the
second is tested, or the first if the list is read backwards. -/
def halve (backwards : Bool) (passes : α → Bool) (xs : List α) : List α × List α :=
  let middle := (xs.length - backwards.toNat) / 2
  match _h : xs.drop middle with
  | [] => ([], [])
  | probe :: rest =>
    if passes probe then
      let cut := halve backwards passes rest
      (xs.take middle ++ probe :: cut.1, cut.2)
    else
      let cut := halve backwards passes (xs.take middle)
      (cut.1, cut.2 ++ probe :: rest)
termination_by xs.length
decreasing_by
  all_goals
    have hlength := congrArg List.length _h
    simp only [List.length_drop, List.length_cons, List.length_take] at hlength ⊢
    omega

theorem isCut_halve (backwards : Bool) (passes : α → Bool) (xs : List α) :
    IsCut passes xs (halve backwards passes xs) := by
  fun_induction halve backwards passes xs with
  | case1 xs middle h =>
    have hempty : xs = [] := by
      have hlength := congrArg List.length h
      simp only [List.length_drop, List.length_nil, middle] at hlength
      exact List.eq_nil_of_length_eq_zero (by omega)
    subst hempty
    exact ⟨rfl, by simp, by simp⟩
  | case2 xs middle probe rest h hprobe cut ih =>
    exact ih.prepend (by rw [← h, List.take_append_drop]) hprobe
  | case3 xs middle probe rest h hprobe cut ih =>
    exact ih.extend (by rw [← h, List.take_append_drop]) (by simpa using hprobe)

/-- The border behind elements that are known to pass. The next element to be tested stands at the given
distance; each distance is twice the one before and one more. -/
def gallopFrom (backwards : Bool) (passes : α → Bool) (distance : Nat) (xs : List α) :
    List α × List α :=
  match _h : xs.drop distance with
  | [] => halve backwards passes xs
  | probe :: rest =>
    if passes probe then
      let cut := gallopFrom backwards passes (2 * distance + 1) rest
      (xs.take distance ++ probe :: cut.1, cut.2)
    else
      let cut := halve backwards passes (xs.take distance)
      (cut.1, cut.2 ++ probe :: rest)
termination_by xs.length
decreasing_by
  have hlength := congrArg List.length _h
  simp only [List.length_drop, List.length_cons] at hlength
  omega

/-- **Galloping**: elements are tested at growing distances until one fails; the border is then found by
halving the distance that was left out last. -/
def gallop (backwards : Bool) (passes : α → Bool) : List α → List α × List α
  | [] => ([], [])
  | first :: rest =>
    if passes first then
      let cut := gallopFrom backwards passes 0 rest
      (first :: cut.1, cut.2)
    else
      ([], first :: rest)

theorem isCut_gallopFrom (backwards : Bool) (passes : α → Bool) (distance : Nat) (xs : List α) :
    IsCut passes xs (gallopFrom backwards passes distance xs) := by
  fun_induction gallopFrom backwards passes distance xs with
  | case1 distance xs h => exact isCut_halve backwards passes xs
  | case2 distance xs probe rest h hprobe cut ih =>
    exact ih.prepend (by rw [← h, List.take_append_drop]) hprobe
  | case3 distance xs probe rest h hprobe cut =>
    exact (isCut_halve backwards passes (xs.take distance)).extend
      (by rw [← h, List.take_append_drop]) (by simpa using hprobe)

theorem isCut_gallop (backwards : Bool) (passes : α → Bool) (xs : List α) :
    IsCut passes xs (gallop backwards passes xs) := by
  cases xs with
  | nil => exact ⟨rfl, by simp [gallop], by simp [gallop]⟩
  | cons first rest =>
    by_cases hfirst : passes first = true
    · simp only [gallop, hfirst, if_true]
      exact (isCut_gallopFrom backwards passes 0 rest).prepend (List.nil_append _).symm hfirst
    · simp only [gallop, hfirst]
      exact ⟨rfl, by simp, by simpa using hfirst⟩

end Telemetry
