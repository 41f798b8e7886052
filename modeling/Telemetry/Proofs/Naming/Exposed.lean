import Telemetry.Proofs.Family.Keys
import Telemetry.Proofs.Naming.Beginning
import Telemetry.Proofs.Naming.Stem

/-!
# Exposed names

Names are exposed with underscores for dots. The grammars do not treat the two alike: a dot may come first in a label
name, but not in a metric name. Still a dot counts as what it is exposed as wherever something is reserved: reserved
suffixes come with both separators, and so do reserved beginnings. So stripping a name of what is reserved commutes with
exposing it. This is all that is needed for exposed names to be names again, and for texts to become the same names
whether they are exposed first or last.

## Main results

* `MetricName.stem_map_undot`: dropping reserved suffixes commutes with exposing
* `LabelName.dropBeginning_map_undot`: dropping separators commutes with exposing
* `Naming.exposed_names_legal`: names are exposed as names, and texts become names before or after they are exposed
-/

namespace Telemetry

namespace Naming

/-! ## Reserved suffixes -/

/-- Reserved suffixes are exposed as reserved suffixes. -/
theorem map_undot_mem_reservedSuffixes {suffix : List Char} (h : suffix ∈ reservedSuffixes) :
    suffix.map undot ∈ reservedSuffixes := by
  revert suffix
  decide

theorem AllReserved.map_undot {parts : List (List Char)} (h : AllReserved parts) :
    AllReserved (parts.map (List.map undot)) := by
  intro part hpart
  obtain ⟨suffix, hsuffix, rfl⟩ := List.mem_map.1 hpart
  exact map_undot_mem_reservedSuffixes (h suffix hsuffix)

/-- A name that ends with no reserved suffix is not exposed with one. -/
theorem reservedSuffix?_map_undot {name : List Char} (h : reservedSuffix? name = none) :
    reservedSuffix? (name.map undot) = none := by
  rw [reservedSuffix?_eq_none_iff] at h ⊢
  intro suffix hsuffix hends
  obtain ⟨other, hother, hends⟩ := exists_reserved_suffix_of_map_undot hsuffix hends
  exact h other hother hends

theorem isSeparator_undot (c : Char) : isSeparator (undot c) = isSeparator c := by
  unfold undot
  split
  · next hdot =>
    rw [hdot]
    rfl
  · rfl

end Naming

open Naming

/-! ## Stripped names -/

namespace MetricName

/-- **Dropping reserved suffixes commutes with exposing.** -/
theorem stem_map_undot (name : List Char) : stem (name.map undot) = (stem name).map undot := by
  obtain ⟨front, parts, hparts, hfree, rfl⟩ := exists_eq_append_flatten name
  rw [List.map_append, List.map_flatten]
  by_cases hfront : front = []
  · subst hfront
    cases parts with
    | nil =>
      have hnil : stem [] = [] := stem_of_reservedSuffix?_eq_none hfree
      show stem [] = (stem []).map undot
      rw [hnil, List.map_nil]
    | cons first parts =>
      rw [List.map_nil, List.nil_append, List.nil_append, stem_flatten hparts, List.map_tail]
      exact stem_flatten hparts.map_undot
  · have hexposed : front.map undot ≠ [] := fun hnil => hfront (List.map_eq_nil_iff.1 hnil)
    rw [stem_append_flatten hfront hfree hparts,
      stem_append_flatten hexposed (reservedSuffix?_map_undot hfree) hparts.map_undot]

end MetricName

namespace LabelName

/-- **Dropping separators commutes with exposing.** -/
theorem dropBeginning_map_undot (name : List Char) :
    dropBeginning (name.map undot) = (dropBeginning name).map undot := by
  have hseparator : isSeparator ∘ undot = isSeparator := funext isSeparator_undot
  simp only [dropBeginning_eq, List.takeWhile_map, List.dropWhile_map, hseparator, List.map_append,
    List.getLast?_map, Option.toList_map]

end LabelName

namespace Naming

/-! ## Names and texts -/

/-- **Names are exposed as names.** The exposed name of a metric is a metric name without dots. That of a label is a label
name of letters, digits and underscores, and does not start with two of them. And every text that is not empty becomes
the same name whether it is brought into the names of metrics or labels first and exposed then, or the other way
round. -/
theorem exposed_names_legal :
    (∀ name, MetricName.problem? name = none →
        MetricName.problem? (exposed name) = none ∧ '.' ∉ (exposed name).toList) ∧
      (∀ name, LabelName.problem? name = none →
        LabelName.problem? (exposed name) = none ∧ keyGrammar.accepts (exposed name).toList = true ∧
          ¬['_', '_'] <+: (exposed name).toList) ∧
      ∀ text, text ≠ "" →
        (∃ name, sanitize .metric (.text text) = .ok name ∧ sanitize .metric (.text (exposed text)) = .ok (exposed name)) ∧
        ∃ name, sanitize .label (.text text) = .ok name ∧ sanitize .label (.text (exposed text)) = .ok (exposed name) := by
  have hmetric := MetricName.sanitizer
  have hlabel := LabelName.sanitizer
  have hstem := MetricName.stem_map_undot
  have hbeginning := LabelName.dropBeginning_map_undot
  refine ⟨fun name h => ⟨hmetric.textProblem?_exposed hstem h, dot_not_mem_exposed name⟩, fun name h => ?_,
    fun text htext => ⟨⟨_, hmetric.sanitize_eq htext, ?_⟩, _, hlabel.sanitize_eq htext, ?_⟩⟩
  · have hkey := legalKey_exposed h
    refine ⟨hlabel.textProblem?_exposed hbeginning h, hkey.accepted, fun hprefix => ?_⟩
    exact Bool.false_ne_true (hkey.unreserved.symm.trans (List.isPrefixOf_iff_prefix.2 hprefix))
  · rw [hmetric.exposed_nearest hstem]
    exact hmetric.sanitize_eq (exposed_ne_empty htext)
  · rw [hlabel.exposed_nearest hbeginning]
    exact hlabel.sanitize_eq (exposed_ne_empty htext)

/-- A metric and a label with dots in their names are exposed without them, and of a text with two dots in front the same
names are made before and after it is exposed. -/
theorem exposed_names_zone :
    MetricName.problem? "time.zone" = none ∧ MetricName.problem? "time_zone" = none ∧
      LabelName.problem? ".zone" = none ∧ LabelName.problem? "_zone" = none ∧
      (∃ name, sanitize .metric (.text "..zone total.info") = .ok name ∧
        sanitize .metric (.text "__zone total_info") = .ok (exposed name)) ∧
      ∃ name, sanitize .label (.text "..zone total.info") = .ok name ∧
        sanitize .label (.text "__zone total_info") = .ok (exposed name) := by
  obtain ⟨hmetrics, hlabels, htexts⟩ := exposed_names_legal
  have hmetric : MetricName.problem? "time.zone" = none := by decide
  have hlabel : LabelName.problem? ".zone" = none := by decide
  have htext : exposed "..zone total.info" = "__zone total_info" := by decide
  obtain ⟨hsame, hsame'⟩ := htexts "..zone total.info" (by decide)
  rw [htext] at hsame hsame'
  exact ⟨hmetric, (hmetrics "time.zone" hmetric).1, hlabel, (hlabels ".zone" hlabel).1, hsame, hsame'⟩

end Naming

end Telemetry
