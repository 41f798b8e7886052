import Telemetry.Labels.Basic

/-!
# The order of label sets

Label sets are compared label by label, by exposed name and then by value; a set that is the beginning of
another comes first.

## Main definitions

* `Labels.key`: the exposed names and values by which label sets are compared
* `Labels.order`, `Labels.lt`: the order

## Main results

* `Labels.lt_trans`: the order is transitive
-/

namespace Telemetry.Labels

/-- The exposed names and the values, alternating. -/
def key (l : Labels) : List String :=
  l.labels.flatMap fun label => [label.exposedName, label.value]

/-- **The order of label sets.** Sets whose names differ in dots and underscores alone tie. -/
def order : Labels → Labels → Ordering :=
  compareOn key

instance : Std.TransCmp order :=
  inferInstanceAs (Std.TransCmp (compareOn key))

/-- Whether a label set comes before another. -/
def lt (a b : Labels) : Bool :=
  order a b == .lt

theorem lt_trans {a b c : Labels} (hab : lt a b = true) (hbc : lt b c = true) : lt a c = true := by
  simp only [lt, beq_iff_eq] at *
  exact Std.TransCmp.lt_trans hab hbc

/-- Label sets in order; ties keep the order in which they are given. -/
def sort (sets : List Labels) : List Labels :=
  arrange order sets

end Telemetry.Labels
