/-!
# Grammars of names

Metric and label names have a first character of one class and further characters of a wider one. Any
text can be brought into the grammar by replacing what does not fit with underscores.

## Main definitions

* `Grammar`: the two character classes
* `Grammar.accepts`: the names of a grammar
* `Grammar.replace`: a text with everything that does not fit replaced

## Main results

* `Grammar.accepts_replace`: replacing leads into the grammar
* `Grammar.replace_eq_self_iff`: exactly the names of the grammar are left alone
-/

namespace Telemetry.Naming

/-- **A grammar of names**: the characters that may come first, and those that may follow. -/
structure Grammar where
  isFirst : Char → Bool
  isRest : Char → Bool

namespace Grammar

/-- The names of a grammar: a first character and any number of further ones. -/
def accepts (g : Grammar) : List Char → Bool
  | [] => false
  | first :: rest => g.isFirst first && rest.all g.isRest

/-- A character as it may follow: itself, or an underscore in its place. -/
def replaceRest (g : Grammar) (c : Char) : Char :=
  if g.isRest c then c else '_'

/-- A character as it may come first: itself, behind an underscore if it is a digit, or an underscore
in its place. -/
def replaceFirst (g : Grammar) (c : Char) : List Char :=
  if g.isFirst c then [c] else if c.isDigit then ['_', c] else ['_']

/-- **The nearest name of the grammar**: what does not fit is replaced, and an underscore goes in front
of a digit at the beginning. -/
def replace (g : Grammar) : List Char → List Char
  | [] => []
  | first :: rest => g.replaceFirst first ++ rest.map g.replaceRest

/-- The grammars of this library: underscores fit everywhere, digits everywhere but at the beginning,
and what may come first may also follow. -/
structure Standard (g : Grammar) : Prop where
  isFirst_underscore : g.isFirst '_' = true
  isRest_of_isFirst : ∀ c, g.isFirst c = true → g.isRest c = true
  isRest_of_isDigit : ∀ c, c.isDigit = true → g.isRest c = true

variable {g : Grammar}

theorem isRest_replaceRest (hg : g.Standard) (c : Char) : g.isRest (g.replaceRest c) = true := by
  unfold replaceRest
  split
  · assumption
  · exact hg.isRest_of_isFirst _ hg.isFirst_underscore

theorem accepts_replace (hg : g.Standard) {chars : List Char} (h : chars ≠ []) :
    g.accepts (g.replace chars) = true := by
  cases chars with
  | nil => exact absurd rfl h
  | cons first rest =>
    have hrest : ∀ c ∈ rest.map g.replaceRest, g.isRest c = true := by
      intro c hc
      obtain ⟨d, _, rfl⟩ := List.mem_map.1 hc
      exact isRest_replaceRest hg d
    by_cases hfirst : g.isFirst first = true
    · simpa [replace, replaceFirst, accepts, hfirst] using hrest
    · by_cases hdigit : first.isDigit = true
      · simpa [replace, replaceFirst, accepts, hfirst, hdigit, hg.isFirst_underscore,
          hg.isRest_of_isDigit first hdigit] using hrest
      · simpa [replace, replaceFirst, accepts, hfirst, hdigit, hg.isFirst_underscore] using hrest

/-- Exactly the names of the grammar, and the empty text, are left alone. -/
theorem replace_eq_self_iff (hg : g.Standard) {chars : List Char} (h : chars ≠ []) :
    g.replace chars = chars ↔ g.accepts chars = true := by
  constructor
  · intro heq
    exact heq ▸ accepts_replace hg h
  · intro haccepts
    cases chars with
    | nil => exact absurd rfl h
    | cons first rest =>
      simp only [accepts, Bool.and_eq_true, List.all_eq_true] at haccepts
      have hrest : rest.map g.replaceRest = rest :=
        (List.map_congr_left fun c hc => if_pos (haccepts.2 c hc)).trans (List.map_id' rest)
      simp [replace, replaceFirst, haccepts.1, hrest]

end Grammar

end Telemetry.Naming
