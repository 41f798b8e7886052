import Telemetry.Proofs.Naming.Nearest

/-!
# Label names without reserved beginnings

A text becomes a label name in two steps: what does not fit the grammar is replaced, and as long as two separators stand
in front, the first of them is dropped. A digit must not come first, but a separator may. No round puts a digit in front,
since the last separator always stays; so of the separators in front the last one is left, and all that follows them.

## Main results

* `LabelName.accepts_of_round`: what one round keeps
* `LabelName.exists_rounds`: the rounds that a name goes through
* `LabelName.dropBeginning_eq`: what is left of a name
* `LabelName.charsProblem?_dropBeginning`: what is left of a name of the grammar is a label name
* `LabelName.sanitize_label_exact`: which label name a text becomes
-/

namespace Telemetry.LabelName

open Naming

variable {name rest : List Char} {first second : Char}

/-! ## One round -/

/-- Two separators in front are a reserved beginning. -/
theorem isSome_reservedBeginning?_cons_cons :
    (reservedBeginning? (first :: second :: rest)).isSome = true ↔
      isSeparator first = true ∧ isSeparator second = true := by
  simp [reservedBeginning?]

/-- **One round**: of two separators in front the first is dropped. -/
theorem dropBeginning_of_isSome (h : (reservedBeginning? name).isSome = true) :
    dropBeginning name = dropBeginning (name.drop 1) := by
  rcases name with _ | ⟨first, _ | ⟨second, rest⟩⟩
  · cases h
  · cases h
  · obtain ⟨hfirst, hsecond⟩ := isSome_reservedBeginning?_cons_cons.1 h
    rw [dropBeginning, hfirst, hsecond]
    rfl

/-- No round is made without a reserved beginning. -/
theorem dropBeginning_of_eq_none (h : reservedBeginning? name = none) : dropBeginning name = name := by
  rcases name with _ | ⟨first, _ | ⟨second, rest⟩⟩
  · rfl
  · rfl
  · have hnot : ¬(isSeparator first = true ∧ isSeparator second = true) := by
      intro hboth
      have hsome : (reservedBeginning? (first :: second :: rest)).isSome = true :=
        isSome_reservedBeginning?_cons_cons.2 hboth
      rw [h] at hsome
      cases hsome
    rw [dropBeginning, if_neg (by simpa using hnot)]

theorem isFirst_of_isSeparator {c : Char} (h : isSeparator c = true) : grammar.isFirst c = true := by
  rcases Bool.or_eq_true_iff.1 h with h | h
  · exact Bool.or_eq_true_iff.2 (.inl (Bool.or_eq_true_iff.2 (.inr h)))
  · exact Bool.or_eq_true_iff.2 (.inr h)

/-- **What one round keeps**: a name of the grammar is left in the grammar. -/
theorem accepts_of_round (h : grammar.accepts name = true) (hround : (reservedBeginning? name).isSome = true) :
    grammar.accepts (name.drop 1) = true := by
  rcases name with _ | ⟨first, _ | ⟨second, rest⟩⟩
  · cases hround
  · cases hround
  · obtain ⟨-, hsecond⟩ := isSome_reservedBeginning?_cons_cons.1 hround
    simp only [Grammar.accepts, List.all_cons, Bool.and_eq_true] at h
    exact Bool.and_eq_true_iff.2 ⟨isFirst_of_isSeparator hsecond, h.2.2⟩

/-! ## All rounds -/

/-- **The rounds that a name goes through**: each begins with two separators in front, and behind the last one there are
no two. -/
theorem exists_rounds (name : List Char) :
    ∃ rounds, (∀ k < rounds, (reservedBeginning? (name.drop k)).isSome = true) ∧
      reservedBeginning? (name.drop rounds) = none ∧ dropBeginning name = name.drop rounds := by
  induction name with
  | nil => exact ⟨0, by simp, rfl, rfl⟩
  | cons first rest ih =>
    by_cases hround : (reservedBeginning? (first :: rest)).isSome = true
    · obtain ⟨rounds, hall, hend, hleft⟩ := ih
      refine ⟨rounds + 1, fun k hk => ?_, hend, (dropBeginning_of_isSome hround).trans hleft⟩
      cases k with
      | zero => exact hround
      | succ k => exact hall k (by omega)
    · have hnone : reservedBeginning? (first :: rest) = none := by simpa using hround
      exact ⟨0, by simp, hnone, dropBeginning_of_eq_none hnone⟩

theorem reservedBeginning?_dropBeginning (name : List Char) : reservedBeginning? (dropBeginning name) = none := by
  obtain ⟨rounds, -, hend, hleft⟩ := exists_rounds name
  rw [hleft, hend]

/-- **What all rounds keep**: what is left of a name of the grammar is in the grammar. -/
theorem accepts_dropBeginning (h : grammar.accepts name = true) : grammar.accepts (dropBeginning name) = true := by
  obtain ⟨rounds, hall, -, hleft⟩ := exists_rounds name
  rw [hleft]
  -- Induction on the rounds that have been made.
  have hmade : ∀ k ≤ rounds, grammar.accepts (name.drop k) = true := by
    intro k hk
    induction k with
    | zero => exact h
    | succ k ih =>
      rw [← List.drop_drop]
      exact accepts_of_round (ih (by omega)) (hall k (by omega))
  exact hmade rounds (Nat.le_refl rounds)

/-- **What is left of a name**: the last of the separators in front, and all that follows them. -/
theorem dropBeginning_eq (name : List Char) :
    dropBeginning name = (name.takeWhile isSeparator).getLast?.toList ++ name.dropWhile isSeparator := by
  induction name with
  | nil => rfl
  | cons first rest ih =>
    by_cases hround : (reservedBeginning? (first :: rest)).isSome = true
    · rw [dropBeginning_of_isSome hround, List.drop_one, List.tail_cons, ih]
      cases rest with
      | nil => cases hround
      | cons second rest =>
        obtain ⟨hfirst, hsecond⟩ := isSome_reservedBeginning?_cons_cons.1 hround
        simp [hfirst, hsecond]
    · rw [dropBeginning_of_eq_none (by simpa using hround)]
      by_cases hfirst : isSeparator first = true
      · cases rest with
        | nil => simp [hfirst]
        | cons second rest =>
          have hsecond : ¬isSeparator second = true := fun hsecond =>
            hround (isSome_reservedBeginning?_cons_cons.2 ⟨hfirst, hsecond⟩)
          simp [hfirst, hsecond]
      · simp [hfirst]

/-- **What is left of a name of the grammar is a label name.** -/
theorem charsProblem?_dropBeginning (h : grammar.accepts name = true) : charsProblem? (dropBeginning name) = none :=
  charsProblem?_eq_none_iff.2 ⟨accepts_dropBeginning h, reservedBeginning?_dropBeginning name⟩

/-! ## Label names from texts -/

variable {text : String}

theorem toList_sanitize (text : String) : (sanitize text).toList = dropBeginning (grammar.replace text.toList) :=
  String.toList_ofList

/-- Replacing what does not fit and dropping separators leads into the label names. -/
theorem sanitizer : Sanitizer .label grammar dropBeginning where
  standard := grammar_standard
  sanitizeText_eq _ := rfl
  legal_strip chars h := by
    rw [textProblem?, problem?, String.toList_ofList]
    exact charsProblem?_dropBeginning h
  accepts_of_legal _ h := (problem?_eq_none_iff.1 h).1
  strip_of_legal _ h := dropBeginning_of_eq_none (problem?_eq_none_iff.1 h).2

/-- **Which label name a text becomes.** Every text becomes one, the empty text excepted. Let everything that does not
fit the grammar be replaced. Then, round by round, one separator is dropped as long as two stand in front; what is left
is the last of the separators in front and all that follows them. So exactly the label names are left alone, and a second
time changes nothing. -/
theorem sanitize_label_exact :
    (∀ text : String, text ≠ "" → ∃ name, Naming.sanitize .label (.text text) = .ok name ∧ problem? name = none ∧
        (∃ rounds, (∀ k < rounds, (reservedBeginning? ((grammar.replace text.toList).drop k)).isSome = true) ∧
          reservedBeginning? ((grammar.replace text.toList).drop rounds) = none ∧
          name.toList = (grammar.replace text.toList).drop rounds) ∧
        name.toList = ((grammar.replace text.toList).takeWhile isSeparator).getLast?.toList ++
          (grammar.replace text.toList).dropWhile isSeparator ∧
        Naming.sanitize .label (.text name) = .ok name) ∧
      (∀ text : String, Naming.sanitize .label (.text text) = .ok text ↔ problem? text = none) ∧
      (∀ text : String, (∃ e, Naming.sanitize .label (.text text) = .error e) ↔ text = "") ∧
      ∀ e, Naming.sanitize .label (.text "") = .error e → e.category = .invalid := by
  refine ⟨fun text htext => ?_, fun _ => sanitizer.sanitize_eq_self_iff, fun _ => sanitizer.exists_eq_error_iff,
    fun e he => ?_⟩
  · have hlegal := sanitizer.textProblem?_nearest htext
    refine ⟨sanitize text, sanitizer.sanitize_eq htext, hlegal, ?_, ?_, sanitizer.sanitize_eq_self_iff.2 hlegal⟩
    · rw [toList_sanitize]
      exact exists_rounds _
    · rw [toList_sanitize, dropBeginning_eq]
  · cases he
    rfl

/-- Of three separators the last is left in front of a digit, and a label name is left alone. -/
theorem sanitize_dotted_environment :
    Naming.sanitize .label (.text "-._2nd zone") = .ok "_2nd_zone" ∧
      Naming.sanitize .label (.text "environment") = .ok "environment" := by
  obtain ⟨hnames, hself, -⟩ := sanitize_label_exact
  refine ⟨?_, (hself "environment").2 (by decide)⟩
  obtain ⟨name, hname, -, -, hchars, -⟩ := hnames "-._2nd zone" (by decide)
  have hzone : name.toList = "_2nd_zone".toList := hchars.trans (by decide)
  rw [hname, String.toList_inj.1 hzone]

end Telemetry.LabelName
