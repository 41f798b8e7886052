import Telemetry.Naming.Problem
import Telemetry.Naming.Reserved
import Telemetry.Text.Blank

/-!
# Unit names

A unit name consists of ASCII letters, digits, underscores, dots and colons; it is no reserved word and does
not end with one behind a separator.

## Main definitions

* `UnitName.isSupported`: the characters
* `UnitName.problem?`: what is wrong with a name
* `UnitName.dropWords`: names without separators at their ends and reserved words at their last end
* `UnitName.sanitize?`: the nearest unit name

## Main results

* `UnitName.charsProblem?_eq_none_iff`: the names without a problem
-/

namespace Telemetry.UnitName

open Naming

def isSupported (c : Char) : Bool :=
  c.isAlphanum || c == '_' || c == '.' || c == ':'

/-- What is wrong with the characters of a name. A reserved word, alone or behind a separator, is found
before an unsupported character. -/
def charsProblem? (name : List Char) : Option Problem :=
  if name.isEmpty then some .empty
  else if reservedWords.contains name then some (.reservedWord name)
  else match reservedSuffix? name with
    | some suffix => some (.reservedSuffix suffix.tail)
    | none => if name.all isSupported then none else some .unsupported

/-- **What is wrong with a name.** -/
def problem? (name : String) : Option Problem :=
  charsProblem? name.toList

def isValid (name : String) : Bool :=
  (problem? name).isNone

/-- The names without a problem: supported characters, no reserved word, no reserved suffix. -/
theorem charsProblem?_eq_none_iff {name : List Char} :
    charsProblem? name = none ↔
      name ≠ [] ∧ name ∉ reservedWords ∧ reservedSuffix? name = none ∧
        name.all isSupported = true := by
  unfold charsProblem?
  cases name with
  | nil => simp
  | cons first rest =>
    by_cases h : first :: rest ∈ reservedWords
    · simp [h]
    · cases reservedSuffix? (first :: rest) <;> simp [h]

/-- A character as a unit name may hold it: itself, or an underscore in its place. -/
def replaceChar (c : Char) : Char :=
  if isSupported c then c else '_'

/-- **A lap over words**, which are dropped behind either separator. A name that is one of them ends this lap and all laps: then
nothing is left. -/
def dropEach : List (List Char) → Lap → Lap
  | [], lap => lap
  | word :: words, lap =>
    if lap.name = word then ⟨[], false⟩ else dropEach words ((lap.drop ('_' :: word)).drop ('.' :: word))

/-- **A lap**: separators are dropped at both ends, and then words at the last end. -/
def lap (table : List (List Char)) (name : List Char) : Lap :=
  let stripped := Text.trim isSeparator name
  dropEach table ⟨stripped, stripped != name⟩

theorem within_dropEach {words : List (List Char)} {n : Nat} {lap : Lap} (h : lap.Within n) :
    (dropEach words lap).Within n := by
  induction words generalizing lap with
  | nil => exact h
  | cons word words ih =>
    rw [dropEach]
    split
    · exact ⟨Nat.zero_le n, nofun⟩
    · exact ih ((h.drop (List.cons_ne_nil _ _)).drop (List.cons_ne_nil _ _))

theorem within_lap (table : List (List Char)) (name : List Char) : (lap table name).Within name.length := by
  have hsublist := Text.trim_sublist isSeparator name
  refine within_dropEach ⟨hsublist.length_le, fun hchanged => ?_⟩
  refine Nat.lt_of_le_of_ne hsublist.length_le fun hlength => ?_
  simp [hsublist.eq_of_length hlength] at hchanged

/-- **A name without separators at its ends and words at its last end.** Lap follows lap until one of them changes
nothing. -/
def dropWords (table : List (List Char)) (name : List Char) : List Char :=
  if _changed : (lap table name).changed = true then dropWords table (lap table name).name else (lap table name).name
termination_by name.length
decreasing_by exact (within_lap table name).2 _changed

/-- The nearest unit name to characters without blanks at their ends: what is not supported is replaced,
then separators are dropped at both ends and reserved words at the last end. Nothing may be left. -/
def sanitizeChars (chars : List Char) : List Char :=
  dropWords reservedWords (chars.map replaceChar)

/-- **The nearest unit name** to a text, if something is left of it. -/
def sanitize? (text : String) : Option String :=
  let name := sanitizeChars (Text.trim Text.isBlank text.toList)
  if name.isEmpty then none else some (String.ofList name)

end Telemetry.UnitName
