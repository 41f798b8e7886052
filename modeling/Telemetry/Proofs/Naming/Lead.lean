import Mathlib.Logic.Basic
import Telemetry.Settings

/-!
# Texts in front of metric names

What may stand in front of metric names leaves the characters of every name legal. It may still spoil the end of one: a
name that is shorter than a reserved suffix may be the last part of it, and the text in front may supply the rest.

## Main results

* `Naming.Grammar.accepts_append`: names of a grammar with more characters
* `Naming.reservedSuffix?_eq_none_iff`: names that end with no reserved suffix
* `Naming.suffix_append_iff`: with what two texts end, one behind the other
* `MetricName.mayLead_iff_exists`: the texts that may stand in front are the beginnings of names
* `MetricName.accepts_append_of_mayLead`: texts in front leave the characters of names legal
* `MetricName.problem?_append_ne_none_iff`: which names are illegal behind a text
-/

namespace Telemetry

namespace Naming

/-- A name with more characters is in a grammar if they may follow. -/
theorem Grammar.accepts_append {g : Grammar} {name : List Char} (h : g.accepts name = true)
    (more : List Char) : g.accepts (name ++ more) = more.all g.isRest := by
  cases name with
  | nil => cases h
  | cons first rest =>
    obtain ⟨hfirst, hrest⟩ := Bool.and_eq_true_iff.1 h
    rw [List.cons_append, accepts, hfirst, List.all_append, hrest]
    rfl

/-- What a name of a grammar begins with is in the grammar. -/
theorem Grammar.accepts_of_append {g : Grammar} {name more : List Char} (hname : name ≠ [])
    (h : g.accepts (name ++ more) = true) : g.accepts name = true := by
  cases name with
  | nil => exact absurd rfl hname
  | cons first rest =>
    rw [List.cons_append, accepts, List.all_append, Bool.and_eq_true_iff, Bool.and_eq_true_iff] at h
    exact Bool.and_eq_true_iff.2 ⟨h.1, h.2.1⟩

/-- All characters of a name may follow in other names. -/
theorem Grammar.all_isRest_of_accepts {g : Grammar} (hg : g.Standard) {name : List Char}
    (h : g.accepts name = true) : name.all g.isRest = true := by
  cases name with
  | nil => cases h
  | cons first rest =>
    obtain ⟨hfirst, hrest⟩ := Bool.and_eq_true_iff.1 h
    rw [List.all_cons, hg.isRest_of_isFirst first hfirst, hrest]
    rfl

/-- Reserved suffixes are reserved words behind a separator. -/
theorem mem_reservedSuffixes_iff {suffix : List Char} :
    suffix ∈ reservedSuffixes ↔ ∃ c ∈ ['_', '.'], ∃ word ∈ reservedWords, suffix = c :: word := by
  simp only [reservedSuffixes, List.mem_flatMap, List.mem_map, eq_comm]

/-- A name that ends with no reserved suffix ends with none of them. -/
theorem reservedSuffix?_eq_none_iff {name : List Char} :
    reservedSuffix? name = none ↔ ∀ suffix ∈ reservedSuffixes, ¬suffix <:+ name := by
  simp only [reservedSuffix?, List.find?_eq_none, List.isSuffixOf_iff_suffix]

/-- **With what two texts end, one behind the other**: with an end of the second, or with all of it and an end of the
first in front. -/
theorem suffix_append_iff {α : Type} {suffix xs ys : List α} :
    suffix <:+ xs ++ ys ↔ suffix <:+ ys ∨ ∃ start, start ≠ [] ∧ start <:+ xs ∧ suffix = start ++ ys := by
  constructor
  · intro h
    rcases List.suffix_or_suffix_of_suffix h (List.suffix_append xs ys) with hshort | ⟨start, rfl⟩
    · exact .inl hshort
    · cases start with
      | nil => exact .inl List.suffix_rfl
      | cons c start =>
        obtain ⟨front, hfront⟩ := h
        rw [← List.append_assoc] at hfront
        exact .inr ⟨c :: start, List.cons_ne_nil c start, ⟨front, List.append_cancel_right hfront⟩, rfl⟩
  · rintro (hshort | ⟨start, -, ⟨front, rfl⟩, rfl⟩)
    · exact List.suffix_append_of_suffix hshort
    · exact ⟨front, (List.append_assoc front start ys).symm⟩

end Naming

namespace MetricName

open Naming

variable {lead name : String}

theorem x_not_mem_of_mem_reservedSuffixes : ∀ suffix ∈ reservedSuffixes, suffix ≠ [] ∧ 'x' ∉ suffix := by
  decide

/-- A text with the letter x behind it ends with no reserved suffix. -/
theorem reservedSuffix?_append_x (chars : List Char) : reservedSuffix? (chars ++ ['x']) = none := by
  rw [reservedSuffix?_eq_none_iff]
  intro suffix hsuffix hends
  obtain ⟨hne, hx⟩ := x_not_mem_of_mem_reservedSuffixes suffix hsuffix
  rcases suffix_append_iff.1 hends with hshort | ⟨start, -, -, rfl⟩
  · rcases List.suffix_cons_iff.1 hshort with rfl | hnil
    · exact hx List.mem_cons_self
    · exact hne (List.suffix_nil.1 hnil)
  · exact hx (List.mem_append_right start List.mem_cons_self)

/-- **The texts that may stand in front of names are the beginnings of names.** One that ends with a reserved suffix is
none by itself, but it is with another letter. -/
theorem mayLead_iff_exists : mayLead lead = true ↔ lead = "" ∨ ∃ more, problem? (lead ++ more) = none := by
  rw [mayLead, Bool.or_eq_true_iff, String.isEmpty_iff]
  refine or_congr_right' fun hne => ⟨fun haccepts => ⟨"x", ?_⟩, fun ⟨more, hlegal⟩ => ?_⟩
  · rw [problem?_eq_none_iff, String.toList_append, Grammar.accepts_append haccepts]
    exact ⟨rfl, reservedSuffix?_append_x lead.toList⟩
  · have haccepts := (problem?_eq_none_iff.1 hlegal).1
    rw [String.toList_append] at haccepts
    exact Grammar.accepts_of_append (mt String.toList_eq_nil_iff.1 hne) haccepts

/-- **What may stand in front of names leaves their characters legal.** -/
theorem accepts_append_of_mayLead (hlead : mayLead lead = true) (hname : problem? name = none) :
    grammar.accepts (lead ++ name).toList = true := by
  have haccepts := (problem?_eq_none_iff.1 hname).1
  rw [String.toList_append]
  rcases Bool.or_eq_true_iff.1 hlead with hempty | hlead
  · rw [String.isEmpty_iff.1 hempty]
    exact haccepts
  · rw [Grammar.accepts_append hlead]
    exact Grammar.all_isRest_of_accepts grammar_standard haccepts

/-- **Which names are illegal behind a text**: those that are the last part of a reserved suffix, where the text ends
with the rest of it. -/
theorem problem?_append_ne_none_iff (hlead : mayLead lead = true) (hname : problem? name = none) :
    problem? (lead ++ name) ≠ none ↔
      ∃ start, start ≠ [] ∧ start <:+ lead.toList ∧ start ++ name.toList ∈ reservedSuffixes := by
  have hfree := reservedSuffix?_eq_none_iff.1 (problem?_eq_none_iff.1 hname).2
  have hreserved : problem? (lead ++ name) ≠ none ↔
      ∃ suffix ∈ reservedSuffixes, suffix <:+ lead.toList ++ name.toList := by
    rw [ne_eq, problem?_eq_none_iff, reservedSuffix?_eq_none_iff, String.toList_append]
    have haccepts := accepts_append_of_mayLead hlead hname
    rw [String.toList_append] at haccepts
    simp only [haccepts, true_and, not_forall, not_not, exists_prop]
  rw [hreserved]
  constructor
  · rintro ⟨suffix, hsuffix, hends⟩
    rcases suffix_append_iff.1 hends with hshort | ⟨start, hne, hstart, rfl⟩
    · exact absurd hshort (hfree suffix hsuffix)
    · exact ⟨start, hne, hstart, hsuffix⟩
  · rintro ⟨start, hne, hstart, hsuffix⟩
    exact ⟨_, hsuffix, suffix_append_iff.2 (.inr ⟨start, hne, hstart, rfl⟩)⟩

end MetricName

end Telemetry
