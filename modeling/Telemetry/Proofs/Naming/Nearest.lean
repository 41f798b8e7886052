import Mathlib.Data.List.Basic
import Telemetry.Naming

/-!
# Nearest names

Metric names and label names are made of texts in two steps. What does not fit the grammar is replaced, and then the
name is stripped of what is reserved at one of its ends. Whatever is stripped, three things are enough: what is stripped
of a name of the grammar leaves a legal name, legal names are in the grammar, and nothing is stripped of them.

Dots are exposed as underscores. Replacing does not tell the two apart, so if stripping does not either, it makes no
difference whether a text is brought into the names first and then exposed, or the other way round.

## Main definitions

* `Naming.nearest`: the nearest name to a text, by a grammar and a way of stripping
* `Naming.Sanitizer`: grammars and ways of stripping that lead into the names of a role

## Main results

* `Naming.Sanitizer.textProblem?_nearest`: every text that is not empty becomes a name
* `Naming.Sanitizer.sanitize_eq_self_iff`: exactly the names are left alone
* `Naming.Sanitizer.exists_eq_error_iff`: only the empty text becomes no name
* `Naming.Grammar.replace_map_undot`: replacing commutes with exposing
* `Naming.Sanitizer.textProblem?_exposed`: names are exposed as names
-/

namespace Telemetry.Naming

/-- **The nearest name to a text**: what does not fit the grammar is replaced, and the rest is stripped. -/
def nearest (g : Grammar) (strip : List Char → List Char) (text : String) : String :=
  String.ofList (strip (g.replace text.toList))

/-- **Grammars and ways of stripping that lead into the names of a role.** -/
structure Sanitizer (role : Role) (g : Grammar) (strip : List Char → List Char) : Prop where
  standard : g.Standard
  sanitizeText_eq : ∀ text, sanitizeText role text = .ok (nearest g strip text)
  legal_strip : ∀ chars, g.accepts chars = true → textProblem? role (String.ofList (strip chars)) = none
  accepts_of_legal : ∀ text, textProblem? role text = none → g.accepts text.toList = true
  strip_of_legal : ∀ text, textProblem? role text = none → strip text.toList = text.toList

variable {role : Role} {g : Grammar} {strip : List Char → List Char} {text : String}

theorem ne_empty_of_textProblem?_eq_none (h : textProblem? role text = none) : text ≠ "" := by
  rintro rfl
  cases role <;> cases h

theorem toList_ne_nil (h : text ≠ "") : text.toList ≠ [] :=
  fun hnil => h (String.toList_eq_nil_iff.1 hnil)

namespace Sanitizer

variable (h : Sanitizer role g strip)

include h

theorem sanitize_eq (htext : text ≠ "") : sanitize role (.text text) = .ok (nearest g strip text) := by
  rw [sanitize_text role (by simpa using htext), h.sanitizeText_eq]

/-- **Every text that is not empty becomes a name.** -/
theorem textProblem?_nearest (htext : text ≠ "") : textProblem? role (nearest g strip text) = none :=
  h.legal_strip _ (Grammar.accepts_replace h.standard (toList_ne_nil htext))

theorem nearest_of_legal (hlegal : textProblem? role text = none) : nearest g strip text = text := by
  have hchars := toList_ne_nil (ne_empty_of_textProblem?_eq_none hlegal)
  have hreplace := (Grammar.replace_eq_self_iff h.standard hchars).2 (h.accepts_of_legal text hlegal)
  rw [nearest, hreplace, h.strip_of_legal text hlegal, String.ofList_toList]

/-- **Exactly the names are left alone.** -/
theorem sanitize_eq_self_iff : sanitize role (.text text) = .ok text ↔ textProblem? role text = none := by
  constructor
  · intro hself
    by_cases htext : text = ""
    · subst htext
      cases hself
    · rw [h.sanitize_eq htext] at hself
      exact Except.ok.inj hself ▸ h.textProblem?_nearest htext
  · intro hlegal
    rw [h.sanitize_eq (ne_empty_of_textProblem?_eq_none hlegal), h.nearest_of_legal hlegal]

/-- **Only the empty text becomes no name.** -/
theorem exists_eq_error_iff : (∃ e, sanitize role (.text text) = .error e) ↔ text = "" := by
  constructor
  · rintro ⟨e, he⟩
    by_contra htext
    rw [h.sanitize_eq htext] at he
    cases he
  · rintro rfl
    exact ⟨.naming (.emptySource role), rfl⟩

end Sanitizer

/-! ## Exposed names -/

section Exposed

theorem exposed_ne_empty (h : text ≠ "") : exposed text ≠ "" := by
  intro hempty
  have hnil := congrArg String.toList hempty
  rw [toList_exposed, String.toList_empty, List.map_eq_nil_iff] at hnil
  exact toList_ne_nil h hnil

/-- An underscore stays in its place, and so does what replaces a dot. -/
theorem Grammar.replaceRest_undot (hg : g.Standard) (c : Char) :
    g.replaceRest (undot c) = undot (g.replaceRest c) := by
  have hunderscore := hg.isRest_of_isFirst '_' hg.isFirst_underscore
  by_cases hdot : c = '.'
  · subst hdot
    have hleft : g.replaceRest (undot '.') = '_' := if_pos hunderscore
    rw [hleft, replaceRest]
    split <;> rfl
  · have hundot : undot c = c := if_neg hdot
    rw [hundot]
    unfold replaceRest
    split
    · exact hundot.symm
    · rfl

theorem Grammar.replaceFirst_undot (hg : g.Standard) (c : Char) :
    g.replaceFirst (undot c) = (g.replaceFirst c).map undot := by
  have hunderscore := hg.isFirst_underscore
  by_cases hdot : c = '.'
  · subst hdot
    have hleft : g.replaceFirst (undot '.') = ['_'] := if_pos hunderscore
    rw [hleft, replaceFirst]
    split <;> rfl
  · have hundot : undot c = c := if_neg hdot
    rw [hundot]
    unfold replaceFirst
    split
    · rw [List.map_singleton, hundot]
    · split
      · rw [List.map_cons, List.map_singleton, hundot]
        rfl
      · rfl

/-- **Replacing commutes with exposing.** -/
theorem Grammar.replace_map_undot (hg : g.Standard) (chars : List Char) :
    g.replace (chars.map undot) = (g.replace chars).map undot := by
  cases chars with
  | nil => rfl
  | cons first rest =>
    rw [List.map_cons, replace, replace, List.map_append, replaceFirst_undot hg, List.map_map, List.map_map]
    congr 1
    exact List.map_congr_left fun c _ => replaceRest_undot hg c

namespace Sanitizer

variable (h : Sanitizer role g strip) (hstrip : ∀ chars, strip (chars.map undot) = (strip chars).map undot)

include h hstrip

/-- **Bringing texts into the names commutes with exposing** if stripping does. -/
theorem exposed_nearest (text : String) : exposed (nearest g strip text) = nearest g strip (exposed text) := by
  rw [← String.toList_inj, toList_exposed, nearest, nearest, String.toList_ofList, String.toList_ofList,
    toList_exposed, Grammar.replace_map_undot h.standard, hstrip]

/-- **Names are exposed as names**: they are left alone, and so are their exposed names. -/
theorem textProblem?_exposed (hlegal : textProblem? role text = none) : textProblem? role (exposed text) = none := by
  have hself := h.exposed_nearest hstrip text
  rw [h.nearest_of_legal hlegal] at hself
  rw [hself]
  exact h.textProblem?_nearest (exposed_ne_empty (ne_empty_of_textProblem?_eq_none hlegal))

end Sanitizer

end Exposed

end Telemetry.Naming
