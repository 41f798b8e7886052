import Telemetry.Datum
import Telemetry.Error.Label

/-!
# Checking documents

A settings document is checked part by part, and every finding is reported together with the path of the
part that it is about.

## Main definitions

* `Fault`, `Finding`: what can be wrong with a part, and a fault with the path of its part
* `Checked`: the result of checking, which is a value or all findings
* `Checked.both`: the results of two parts, with the findings of both
* `Checked.text`, `Checked.truth`, `Checked.texts`, `Checked.record`: the parts of documents

## Main results

* `Checked.both_eq_ok_iff`: two parts are accepted together exactly if each is
* `Checked.texts_eq_ok_iff`, `Checked.member_eq_ok_iff`, `Checked.ensure_eq_ok_iff`: which parts are accepted
-/

namespace Telemetry

-- Powers are those of whole numbers in the core library, whatever else is in scope.
attribute [local instance (2000)] instPowNat

/-- **What is wrong with a part of a document.** -/
inductive Fault where
  | notText
  | notTruth
  | unreadableTruth
  | notChoice (choices : String)
  | notDictionary
  | notRecord (title : String)
  | illegalLead (given : String)
  | illegalLabel (name : String) (problem : Naming.Problem)
  | illegalExporterLead (exporter given : String)
  deriving DecidableEq

namespace Fault

def sort : Fault → String
  | .notText => "string_type"
  | .notTruth => "bool_type"
  | .unreadableTruth => "bool_parsing"
  | .notChoice _ => "literal_error"
  | .notDictionary => "dict_type"
  | .notRecord _ => "model_type"
  | .illegalLead _ | .illegalLabel .. | .illegalExporterLead .. => "value_error"

/-- **A fault in words.** -/
def message : Fault → String
  | .notText => "Input should be a valid string"
  | .notTruth => "Input should be a valid boolean"
  | .unreadableTruth => "Input should be a valid boolean, unable to interpret input"
  | .notChoice choices => "Input should be " ++ choices
  | .notDictionary => "Input should be a valid dictionary"
  | .notRecord title => "Input should be a valid dictionary or instance of " ++ title
  | .illegalLead given => "Value error, '" ++ given ++ "' is not a valid metric name prefix"
  | .illegalLabel name problem => "Value error, " ++ LabelError.illegalNameText name problem
  | .illegalExporterLead exporter given =>
    "Value error, Exporter '" ++ exporter ++ "' has an invalid prefix '" ++ given ++ "'"

end Fault

/-- **A fault with the path of the part that has it.** -/
structure Finding where
  path : List String
  fault : Fault
  deriving DecidableEq

/-- **The result of checking**: a value, or all findings in order. -/
abbrev Checked (α : Type) : Type :=
  Except (List Finding) α

namespace Checked

/-- A part with a fault. -/
def refuse (fault : Fault) : Checked α :=
  .error [⟨[], fault⟩]

/-- The result of a part that is found under a key. -/
def under (key : String) : Checked α → Checked α
  | .ok x => .ok x
  | .error findings => .error (findings.map fun finding => { finding with path := key :: finding.path })

/-- **The results of two parts.** Findings of the first come first. -/
def both : Checked α → Checked β → Checked (α × β)
  | .ok x, .ok y => .ok (x, y)
  | .error e, .ok _ => .error e
  | .ok _, .error f => .error f
  | .error e, .error f => .error (e ++ f)

@[simp] theorem under_eq_ok_iff {key : String} {c : Checked α} {x : α} :
    under key c = .ok x ↔ c = .ok x := by
  cases c <;> simp [under]

/-- What is made of a part is accepted exactly if the part is. -/
theorem map_eq_ok_iff {f : α → β} {c : Checked α} {y : β} :
    c.map f = .ok y ↔ ∃ x, c = .ok x ∧ f x = y := by
  cases c <;> simp [Except.map]

/-- Two parts are accepted together exactly if each is. -/
theorem both_eq_ok_iff {a : Checked α} {b : Checked β} {x : α} {y : β} :
    both a b = .ok (x, y) ↔ a = .ok x ∧ b = .ok y := by
  cases a <;> cases b <;> simp [both]

/-! ## Parts of documents -/

def text : Datum → Checked String
  | .text s => .ok s
  | _ => refuse .notText

/-- The texts that stand for truth values, in any case. -/
def truthWord? (word : String) : Option Bool :=
  let word := String.ofList (word.toList.map Char.toLower)
  if ["1", "t", "y", "on", "yes", "true"].contains word then some true
  else if ["0", "f", "n", "no", "off", "false"].contains word then some false
  else none

/-- The whole numbers of 64 binary digits that stand for truth values; larger ones are no such thing at
all. -/
def truthNumber (n : Int) : Checked Bool :=
  if n = 0 then .ok false
  else if n = 1 then .ok true
  else if -2 ^ (63 : Nat) ≤ n ∧ n < 2 ^ (63 : Nat) then refuse .unreadableTruth
  else refuse .notTruth

/-- The whole number that a binary64 number is. -/
def wholeOf? : Binary64 → Option Int
  | .finite negative units _ =>
    if units % Binary64.unitsPerOne = 0 then
      let whole : Int := units / Binary64.unitsPerOne
      some (if negative then -whole else whole)
    else
      none
  | _ => none

/-- **A truth value**, or a number or a text that stands for one. -/
def truth : Datum → Checked Bool
  | .number (.truth b) => .ok b
  | .number (.whole n) => truthNumber n
  | .number (.real x) =>
    match wholeOf? x with
    | some n => truthNumber n
    | none => refuse .notTruth
  | .text s =>
    match truthWord? s with
    | some b => .ok b
    | none => refuse .unreadableTruth
  | _ => refuse .notTruth

/-- A key as a step of a path. Truth values are shown as the numbers that they are. -/
def keyStep : Datum → String
  | .number (.truth b) => if b then "1" else "0"
  | key => key.shown

/-- A text under a text. The findings of the key come first. -/
def textEntry (key value : Datum) : Checked (String × String) :=
  under (keyStep key) (both (under "[key]" (text key)) (text value))

/-- An entry is accepted exactly if it is a text under a text. -/
theorem textEntry_eq_ok_iff {key value : Datum} {entry : String × String} :
    textEntry key value = .ok entry ↔ key = .text entry.1 ∧ value = .text entry.2 := by
  have htext {d : Datum} {s : String} : text d = .ok s ↔ d = .text s := by
    cases d <;> simp [text, refuse]
  obtain ⟨name, value'⟩ := entry
  rw [textEntry, under_eq_ok_iff, both_eq_ok_iff, under_eq_ok_iff, htext, htext]

/-- Texts under texts, each of which is checked. -/
def textEntries : List (Datum × Datum) → Checked (List (String × String))
  | [] => .ok []
  | (key, value) :: rest =>
    (both (textEntry key value) (textEntries rest)).map fun (entry, others) => entry :: others

def textData (entries : List (String × String)) : List (Datum × Datum) :=
  entries.map fun (key, value) => (.text key, .text value)

/-- Entries are accepted exactly if all of them are texts under texts. -/
theorem textEntries_eq_ok_iff {entries : List (Datum × Datum)} {found : List (String × String)} :
    textEntries entries = .ok found ↔ entries = textData found := by
  induction entries generalizing found with
  | nil => cases found <;> simp [textEntries, textData]
  | cons entry rest ih =>
    simp only [textEntries, map_eq_ok_iff, Prod.exists, both_eq_ok_iff, textEntry_eq_ok_iff, ih]
    constructor
    · rintro ⟨key, value, others, ⟨⟨hkey, hvalue⟩, rfl⟩, rfl⟩
      have hentry : entry = (.text key, .text value) := Prod.ext hkey hvalue
      rw [hentry]
      rfl
    · intro h
      cases found with
      | nil => cases h
      | cons first others =>
        cases h
        exact ⟨first.1, first.2, others, ⟨⟨rfl, rfl⟩, rfl⟩, rfl⟩

/-- **A dictionary of texts.** -/
def texts : Datum → Checked (List (String × String))
  | .dict entries => textEntries entries
  | _ => refuse .notDictionary

/-- A datum is accepted exactly if it is a dictionary of texts. -/
theorem texts_eq_ok_iff {d : Datum} {found : List (String × String)} :
    texts d = .ok found ↔ d = .dict (textData found) := by
  cases d <;> simp [texts, refuse, textEntries_eq_ok_iff]

/-- A dictionary with fixed keys, of a title. -/
def record (title : String) (check : List (Datum × Datum) → Checked α) : Datum → Checked α
  | .dict entries => check entries
  | _ => refuse (.notRecord title)

/-- **The part under a key**, or a default if there is none. -/
def member (entries : List (Datum × Datum)) (key : String) (default : α) (check : Datum → Checked α) :
    Checked α :=
  match Datum.lookup entries key with
  | some d => under key (check d)
  | none => .ok default

/-- The part under a key is accepted exactly if what is found there is, or is the default. -/
theorem member_eq_ok_iff {entries : List (Datum × Datum)} {key : String} {default x : α}
    {check : Datum → Checked α} :
    member entries key default check = .ok x ↔
      match Datum.lookup entries key with
      | some d => check d = .ok x
      | none => default = x := by
  unfold member
  split <;> simp

/-- A part that passes a further test. -/
def ensure (fault? : α → Option Fault) (c : Checked α) : Checked α :=
  match c with
  | .ok x =>
    match fault? x with
    | some fault => refuse fault
    | none => .ok x
  | .error findings => .error findings

/-- A part is accepted exactly if it passes both tests. -/
theorem ensure_eq_ok_iff {fault? : α → Option Fault} {c : Checked α} {x : α} :
    ensure fault? c = .ok x ↔ c = .ok x ∧ fault? x = none := by
  unfold ensure
  split
  · next y =>
    split
    · next fault hfault =>
      constructor
      · intro h
        cases h
      · rintro ⟨h, hnone⟩
        cases h
        rw [hfault] at hnone
        cases hnone
    · next hfault =>
      constructor
      · intro h
        cases h
        exact ⟨rfl, hfault⟩
      · exact And.left
  · simp

end Checked

end Telemetry
