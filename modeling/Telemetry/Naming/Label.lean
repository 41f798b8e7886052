import Telemetry.Naming.Grammar
import Telemetry.Naming.Problem
import Telemetry.Naming.Reserved

/-!
# Label names

A label name consists of ASCII letters, digits, underscores and dots, does not start with a digit, and does
not start with two separators.

## Main definitions

* `LabelName.grammar`: the characters
* `LabelName.problem?`: what is wrong with a name
* `LabelName.sanitize`: the nearest label name

## Main results

* `LabelName.problem?_eq_none_iff`: the names without a problem
-/

namespace Telemetry.LabelName

open Naming

def grammar : Grammar where
  isFirst c := c.isAlpha || c == '_' || c == '.'
  isRest c := c.isAlphanum || c == '_' || c == '.'

theorem grammar_standard : grammar.Standard where
  isFirst_underscore := rfl
  isRest_of_isFirst c h := by
    simp only [grammar, Bool.or_eq_true] at h ⊢
    rcases h with (h | h) | h <;> simp [Char.isAlphanum, h]
  isRest_of_isDigit c h := by simp [grammar, Char.isAlphanum, h]

/-- The reserved beginning of a name: two separators. -/
def reservedBeginning? : List Char → Option (List Char)
  | first :: second :: _ =>
    if isSeparator first && isSeparator second then some [first, second] else none
  | _ => none

/-- What is wrong with the characters of a name. An unsupported character is found before a reserved
beginning. -/
def charsProblem? (name : List Char) : Option Problem :=
  if name.isEmpty then some .empty
  else if grammar.accepts name then (reservedBeginning? name).map .reservedBeginning
  else some .unsupported

/-- **What is wrong with a name.** -/
def problem? (name : String) : Option Problem :=
  charsProblem? name.toList

def isValid (name : String) : Bool :=
  (problem? name).isNone

/-- Characters without a problem fit the grammar and have no reserved beginning. -/
theorem charsProblem?_eq_none_iff {name : List Char} :
    charsProblem? name = none ↔ grammar.accepts name = true ∧ reservedBeginning? name = none := by
  unfold charsProblem?
  cases name with
  | nil => simp [Grammar.accepts]
  | cons first rest =>
    by_cases h : grammar.accepts (first :: rest) = true <;> simp [h]

/-- A name without a problem fits the grammar and has no reserved beginning. -/
theorem problem?_eq_none_iff {name : String} :
    problem? name = none ↔
      grammar.accepts name.toList = true ∧ reservedBeginning? name.toList = none :=
  charsProblem?_eq_none_iff

/-- A name without the separators in front that another separator follows. -/
def dropBeginning : List Char → List Char
  | first :: second :: rest =>
    if isSeparator first && isSeparator second then dropBeginning (second :: rest)
    else first :: second :: rest
  | name => name

/-- The nearest label name to characters: what does not fit is replaced, and of several separators in
front the last is kept. -/
def sanitizeChars (chars : List Char) : List Char :=
  dropBeginning (grammar.replace chars)

/-- **The nearest label name** to a text that is not empty. -/
def sanitize (text : String) : String :=
  String.ofList (sanitizeChars text.toList)

end Telemetry.LabelName
