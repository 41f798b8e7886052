import Telemetry.Arrangement
import Telemetry.Point.Amount

/-!
# State sets

A state set says of named states whether they are enabled.

## Main definitions

* `State`, `StateSet`: one state, and a set of states in the order of their names
* `StateSource`: the states that are handed over
* `StateSet.ofStates`, `StateSet.ofSource`: state sets
* `StateSet.isEnabled`: look-up

## Main results

* `StateSet.ofStates_toList`: a state set is made again from its list
-/

namespace Telemetry

/-- **One state.** -/
structure State where
  name : String
  enabled : Bool
  deriving DecidableEq

namespace State

def order : State → State → Ordering :=
  compareOn name

instance : Std.TransCmp order :=
  inferInstanceAs (Std.TransCmp (compareOn name))

def display (s : State) : Display :=
  .record "State" [
    ("name", .ofString s.name),
    ("enabled", .word (Number.truth s.enabled).chars)]

end State

/-- **A set of states**: at least one, with names that are not empty and pairwise distinct, in the order
of their names. -/
@[ext]
structure StateSet where
  toList : List State
  nonempty : toList ≠ []
  named : ∀ s ∈ toList, s.name ≠ ""
  increasing : Increasing State.order toList
  deriving DecidableEq

/-- **The states that are handed over**: a list, or truth by name. -/
inductive StateSource where
  | states (states : List State)
  | mapping (entries : List (String × Datum))

namespace StateSet

/-- **The set of a list of states**, in any order. -/
def ofStates (states : List State) : Except Error StateSet :=
  let sorted := arrange State.order states
  if hempty : sorted ≠ [] then
    if hnamed : ∀ s ∈ sorted, s.name ≠ "" then
      match htie : firstTie? State.order sorted with
      | some (first, _) => .error (.point (.stateDuplicate first.name))
      | none => .ok ⟨sorted, hempty, hnamed, increasing_arrange htie⟩
    else
      .error (.point .stateUnnamed)
  else
    .error (.point .noStates)

def ofEntries (entries : List (String × Datum)) : List State :=
  entries.map fun (name, enabled) => ⟨name, enabled.isTruthy⟩

/-- **The set of the states that are handed over.** -/
def ofSource : StateSource → Except Error StateSet
  | .states states => ofStates states
  | .mapping entries => ofStates (ofEntries entries)

theorem ofStates_toList (s : StateSet) : ofStates s.toList = .ok s := by
  unfold ofStates
  dsimp only
  rw [dif_pos (by rw [s.increasing.arrange_eq]; exact s.nonempty),
    dif_pos (by rw [s.increasing.arrange_eq]; exact s.named)]
  split
  · next first _ htie =>
    rw [s.increasing.arrange_eq, s.increasing.firstTie?_eq_none] at htie
    exact absurd htie (by simp)
  · congr 1
    exact StateSet.ext s.increasing.arrange_eq

/-- **Whether a state is enabled.** Only states of the set can be asked for. -/
def isEnabled (s : StateSet) (name : String) : Except Error Bool :=
  match s.toList.find? (·.name == name) with
  | some state => .ok state.enabled
  | none => .error (.point (.stateUnknown (Datum.text name).written))

/-- The look-up of what is handed over for a name; no state has a name that is no text. -/
def isEnabledAt (s : StateSet) : Datum → Except Error Bool
  | .text name => s.isEnabled name
  | d => .error (.point (.stateUnknown d.written))

def display (s : StateSet) : Display :=
  .tuple (s.toList.map State.display)

end StateSet

end Telemetry
