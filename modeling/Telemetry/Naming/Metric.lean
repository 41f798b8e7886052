import Telemetry.Naming.Grammar
import Telemetry.Naming.Problem
import Telemetry.Naming.Reserved

/-!
# Metric names

A metric name consists of ASCII letters, digits, underscores, colons and dots, does not start with a digit
or a dot, and does not end with a reserved suffix.

## Main definitions

* `MetricName.grammar`: the characters
* `MetricName.problem?`: what is wrong with a name
* `MetricName.dropSuffixes`: names without reserved suffixes at their end
* `MetricName.sanitize`: the nearest metric name

## Main results

* `MetricName.problem?_eq_none_iff`: the names without a problem
-/

namespace Telemetry.MetricName

open Naming

def grammar : Grammar where
  isFirst c := c.isAlpha || c == '_' || c == ':'
  isRest c := c.isAlphanum || c == '_' || c == ':' || c == '.'

theorem grammar_standard : grammar.Standard where
  isFirst_underscore := rfl
  isRest_of_isFirst c h := by
    simp only [grammar, Bool.or_eq_true] at h ⊢
    rcases h with (h | h) | h <;> simp [Char.isAlphanum, h]
  isRest_of_isDigit c h := by simp [grammar, Char.isAlphanum, h]

/-- What is wrong with the characters of a name. A reserved suffix is found before an unsupported
character. -/
def charsProblem? (name : List Char) : Option Problem :=
  if name.isEmpty then some .empty
  else match reservedSuffix? name with
    | some suffix => some (.reservedSuffix suffix)
    | none => if grammar.accepts name then none else some .unsupported

/-- **What is wrong with a name.** -/
def problem? (name : String) : Option Problem :=
  charsProblem? name.toList

def isValid (name : String) : Bool :=
  (problem? name).isNone

/-- Characters without a problem fit the grammar and end with no reserved suffix. -/
theorem charsProblem?_eq_none_iff {name : List Char} :
    charsProblem? name = none ↔ grammar.accepts name = true ∧ reservedSuffix? name = none := by
  unfold charsProblem?
  cases name with
  | nil => simp [Grammar.accepts]
  | cons first rest =>
    cases reservedSuffix? (first :: rest) <;> simp

/-- A name without a problem fits the grammar and ends with no reserved suffix. -/
theorem problem?_eq_none_iff {name : String} :
    problem? name = none ↔
      grammar.accepts name.toList = true ∧ reservedSuffix? name.toList = none :=
  charsProblem?_eq_none_iff

/-- **A lap over suffixes**, which ends at once if the name is one of them: then the name is this one without its
separator. -/
def dropEach : List (List Char) → Lap → Except (List Char) Lap
  | [], lap => .ok lap
  | suffix :: suffixes, lap =>
    if lap.name = suffix then .error suffix.tail else dropEach suffixes (lap.drop suffix)

theorem within_dropEach {suffixes : List (List Char)} {n : Nat} {lap next : Lap} (hne : ∀ suffix ∈ suffixes, suffix ≠ [])
    (h : lap.Within n) (hnext : dropEach suffixes lap = .ok next) : next.Within n := by
  induction suffixes generalizing lap with
  | nil => exact Except.ok.inj hnext ▸ h
  | cons suffix suffixes ih =>
    rw [List.forall_mem_cons] at hne
    rw [dropEach] at hnext
    split at hnext
    · cases hnext
    · exact ih hne.2 (h.drop hne.1) hnext

/-- **A name without the suffixes of a table at its end.** Lap follows lap until one of them changes nothing. -/
def dropSuffixes (table : List (List Char)) (nonempty : ∀ suffix ∈ table, suffix ≠ []) (name : List Char) : List Char :=
  match _lap : dropEach table ⟨name, false⟩ with
  | .error word => word
  | .ok next => if _changed : next.changed = true then dropSuffixes table nonempty next.name else next.name
termination_by name.length
decreasing_by
  have hstart : Lap.Within name.length ⟨name, false⟩ := ⟨Nat.le_refl _, nofun⟩
  exact (within_dropEach nonempty hstart _lap).2 _changed

/-- The nearest metric name to characters: what does not fit is replaced, and reserved suffixes at the
end are dropped. -/
def sanitizeChars (chars : List Char) : List Char :=
  dropSuffixes reservedSuffixes (fun _ => ne_nil_of_mem_reservedSuffixes) (grammar.replace chars)

/-- **The nearest metric name** to a text that is not empty. -/
def sanitize (text : String) : String :=
  String.ofList (sanitizeChars text.toList)

end Telemetry.MetricName
