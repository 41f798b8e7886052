/-!
# Chains

A list is a chain if each element may follow the one in front of it. Nothing is asked of elements that are
not neighbours, so chains say something about relations that are not transitive.

## Main definitions

* `Chained`: lists in which neighbours are related

## Main results

* `chained_append`, `chained_append_cons`: chains out of chains
* `Chained.pairwise`: of a transitive relation, all pairs of a chain are related
-/

namespace Telemetry

variable {α : Type} {ok : α → α → Prop} {xs ys : List α}

/-- **Chains**: each element may follow the one in front of it. -/
def Chained (ok : α → α → Prop) : List α → Prop
  | a :: b :: rest => ok a b ∧ Chained ok (b :: rest)
  | _ => True

theorem chained_nil : Chained ok [] := trivial

theorem chained_singleton (a : α) : Chained ok [a] := trivial

theorem chained_cons {a : α} :
    Chained ok (a :: xs) ↔ (∀ b ∈ xs.head?, ok a b) ∧ Chained ok xs := by
  cases xs <;> simp [Chained]

/-- Two chains make a chain if the second may follow the first. -/
theorem chained_append :
    Chained ok (xs ++ ys) ↔
      Chained ok xs ∧ Chained ok ys ∧ ∀ a ∈ xs.getLast?, ∀ b ∈ ys.head?, ok a b := by
  induction xs with
  | nil => simp [chained_nil]
  | cons a rest ih =>
    cases rest with
    | nil => simp [chained_cons, chained_nil, and_comm]
    | cons b rest =>
      simp only [List.cons_append, Chained] at ih ⊢
      rw [ih]
      simp [and_assoc]

/-- A chain can be cut at any of its elements. -/
theorem chained_append_cons {a : α} :
    Chained ok (xs ++ a :: ys) ↔ Chained ok (xs ++ [a]) ∧ Chained ok (a :: ys) := by
  simp only [chained_append, chained_cons, List.head?_cons, Option.mem_some_iff, forall_eq',
    List.head?_nil, Option.not_mem_none, false_implies, implies_true, true_and, chained_nil]
  exact ⟨fun ⟨hx, ha, h⟩ => ⟨⟨hx, h⟩, ha⟩, fun ⟨⟨hx, h⟩, ha⟩ => ⟨hx, ha, h⟩⟩

theorem Chained.tail {a : α} (h : Chained ok (a :: xs)) : Chained ok xs :=
  (chained_cons.1 h).2

/-- A chain read backwards is a chain of the relation read backwards. -/
theorem Chained.reverse (h : Chained ok xs) : Chained (fun a b => ok b a) xs.reverse := by
  induction xs with
  | nil => exact chained_nil
  | cons a rest ih =>
    obtain ⟨ha, hrest⟩ := chained_cons.1 h
    rw [List.reverse_cons, chained_append]
    refine ⟨ih hrest, chained_singleton a, fun b hb c hc => ?_⟩
    simp only [List.head?_cons, Option.mem_some_iff] at hc
    subst hc
    rw [List.getLast?_reverse] at hb
    exact ha b hb

theorem Chained.imp {ok' : α → α → Prop} (himp : ∀ a ∈ xs, ∀ b ∈ xs, ok a b → ok' a b)
    (h : Chained ok xs) : Chained ok' xs := by
  induction xs with
  | nil => exact chained_nil
  | cons a rest ih =>
    obtain ⟨ha, hrest⟩ := chained_cons.1 h
    refine chained_cons.2 ⟨fun b hb => ?_, ?_⟩
    · exact himp a (by simp) b (by simp [List.mem_of_mem_head? hb]) (ha b hb)
    · exact ih (fun b hb c hc => himp b (by simp [hb]) c (by simp [hc])) hrest

theorem Chained.and {ok' : α → α → Prop} (h : Chained ok xs) (h' : Chained ok' xs) :
    Chained (fun a b => ok a b ∧ ok' a b) xs := by
  induction xs with
  | nil => exact chained_nil
  | cons a rest ih =>
    obtain ⟨ha, hrest⟩ := chained_cons.1 h
    obtain ⟨ha', hrest'⟩ := chained_cons.1 h'
    exact chained_cons.2 ⟨fun b hb => ⟨ha b hb, ha' b hb⟩, ih hrest hrest'⟩

/-- Of a transitive relation, all pairs of a chain are related. -/
theorem Chained.pairwise (htrans : ∀ a b c, ok a b → ok b c → ok a c) (h : Chained ok xs) :
    xs.Pairwise ok := by
  induction xs with
  | nil => exact .nil
  | cons a rest ih =>
    obtain ⟨ha, hrest⟩ := chained_cons.1 h
    refine List.pairwise_cons.2 ⟨fun c hc => ?_, ih hrest⟩
    cases rest with
    | nil => cases hc
    | cons b rest =>
      have hab : ok a b := ha b rfl
      rcases List.mem_cons.1 hc with rfl | hc
      · exact hab
      · exact htrans a b c hab ((List.pairwise_cons.1 (ih hrest)).1 c hc)

/-- If all pairs are related, so are neighbours. -/
theorem chained_of_pairwise (h : xs.Pairwise ok) : Chained ok xs := by
  induction xs with
  | nil => exact chained_nil
  | cons a rest ih =>
    obtain ⟨ha, hrest⟩ := List.pairwise_cons.1 h
    exact chained_cons.2 ⟨fun b hb => ha b (List.mem_of_mem_head? hb), ih hrest⟩

end Telemetry
