/-!
# Reserved words

Exposition formats append words to metric names: totals, creation times, buckets and info samples get a
separator and a word of their own. Such an ending is therefore no part of a name.

Names are rid of what is reserved in laps over a table. What a lap drops can bring another ending to light, so a lap that has
changed the name is followed by the next one.

## Main definitions

* `reservedWords`, `reservedSuffixes`: the words, and the words behind a separator
* `reservedSuffix?`: the reserved suffix with which a name ends
* `isSeparator`, `undot`, `exposed`: separators, and names as they are exposed
* `Lap`, `Lap.drop`: a name on a lap, and the lap without a suffix

## Main results

* `Lap.drop_cases`: what is dropped of a name
* `Lap.Within.drop`: a name that is changed gets shorter
-/

namespace Telemetry.Naming

def isSeparator (c : Char) : Bool :=
  c == '_' || c == '.'

def reservedWords : List (List Char) := [
  ['t', 'o', 't', 'a', 'l'],
  ['c', 'r', 'e', 'a', 't', 'e', 'd'],
  ['b', 'u', 'c', 'k', 'e', 't'],
  ['i', 'n', 'f', 'o']]

/-- **The reserved suffixes**: a separator and a reserved word. -/
def reservedSuffixes : List (List Char) :=
  ['_', '.'].flatMap fun separator => reservedWords.map (separator :: ·)

theorem ne_nil_of_mem_reservedSuffixes {suffix : List Char} (h : suffix ∈ reservedSuffixes) : suffix ≠ [] := by
  revert suffix
  decide

/-- The reserved suffix with which a name ends. -/
def reservedSuffix? (name : List Char) : Option (List Char) :=
  reservedSuffixes.find? (·.isSuffixOf name)

/-- A character as it is exposed: an underscore for a dot. -/
def undot (c : Char) : Char :=
  if c = '.' then '_' else c

/-- **The exposed name**: the name with underscores for dots. -/
def exposed (name : String) : String :=
  String.ofList (name.toList.map undot)

@[simp] theorem toList_exposed (name : String) : (exposed name).toList = name.toList.map undot :=
  String.toList_ofList

/-! ## Laps -/

/-- **A name on a lap**, and whether the lap has changed it. -/
structure Lap where
  name : List Char
  changed : Bool

namespace Lap

/-- **A lap without a suffix**, if the name ends with it. -/
def drop (suffix : List Char) (lap : Lap) : Lap :=
  if suffix.isSuffixOf lap.name then ⟨lap.name.take (lap.name.length - suffix.length), true⟩ else lap

/-- What is dropped of a name is a suffix of it. -/
theorem drop_cases (suffix : List Char) (lap : Lap) :
    (¬suffix <:+ lap.name ∧ lap.drop suffix = lap) ∨
      ∃ front, lap.name = front ++ suffix ∧ lap.drop suffix = ⟨front, true⟩ := by
  unfold drop
  split
  · next hends =>
    obtain ⟨front, hname⟩ := List.isSuffixOf_iff_suffix.1 hends
    exact .inr ⟨front, hname.symm, by simp [← hname]⟩
  · next hnot => exact .inl ⟨mt List.isSuffixOf_iff_suffix.2 hnot, rfl⟩

/-- Laps with a name of at most a length, and of less if it has been changed. -/
def Within (n : Nat) (lap : Lap) : Prop :=
  lap.name.length ≤ n ∧ (lap.changed = true → lap.name.length < n)

theorem Within.drop {n : Nat} {lap : Lap} {suffix : List Char} (h : lap.Within n) (hne : suffix ≠ []) :
    (lap.drop suffix).Within n := by
  rcases drop_cases suffix lap with ⟨-, hdrop⟩ | ⟨front, hname, hdrop⟩
  · rwa [hdrop]
  · have hlength := h.1
    have hpos := List.length_pos_iff.2 hne
    rw [hname, List.length_append] at hlength
    have hshorter : front.length < n := by omega
    rw [hdrop]
    exact ⟨Nat.le_of_lt hshorter, fun _ => hshorter⟩

end Lap

end Telemetry.Naming
