import Telemetry.Proofs.Family.Apart
import Telemetry.Proofs.Family.Shown

/-!
# Names that scrapes see

Names of families and samples consist of letters, digits, underscores and colons, and do not start with a digit,
as long as no unit has a dot in its name. The dots of metric names are exposed as underscores, but a unit is
appended as it is.

## Main definitions

* `Naming.exposedGrammar`: the characters of exposed names
* `Family.NamesAccepted`: families that have all their names in this grammar

## Main results

* `Naming.exposed_eq_self_iff`: which names are exposed as they are
* `Metadata.accepts_exposedName`: names of metrics are exposed in this grammar
* `Metadata.accepts_familyName_iff`: which names of families are in the grammar
* `Family.exposed_names_iff`: which metrics are exposed under names of the grammar
* `Family.dotted_unit_exposed`: a family that has a dot in its name
-/

namespace Telemetry

open Naming

/-! ## The grammar -/

namespace Naming

/-- A name leads from one grammar into another if its characters do. -/
theorem Grammar.accepts_map {g g' : Grammar} {f : Char → Char}
    (hfirst : ∀ c, g.isFirst c = true → g'.isFirst (f c) = true)
    (hrest : ∀ c, g.isRest c = true → g'.isRest (f c) = true) {name : List Char}
    (h : g.accepts name = true) : g'.accepts (name.map f) = true := by
  cases name with
  | nil => cases h
  | cons first rest =>
    obtain ⟨haccepted, hall⟩ := Bool.and_eq_true_iff.1 h
    refine Bool.and_eq_true_iff.2 ⟨hfirst first haccepted, List.all_eq_true.2 fun c hc => ?_⟩
    obtain ⟨d, hd, rfl⟩ := List.mem_map.1 hc
    exact hrest d (List.all_eq_true.1 hall d hd)

/-- **The characters of exposed names.** -/
def exposedGrammar : Grammar where
  isFirst c := c.isAlpha || c == '_' || c == ':'
  isRest c := c.isAlphanum || c == '_' || c == ':'

/-- What holds of the underscore and of a character that is no dot holds of the character as it is exposed. -/
theorem undot_of {P : Char → Bool} {c : Char} (hunderscore : P '_' = true) (hother : c ≠ '.' → P c = true) :
    P (undot c) = true := by
  unfold undot
  split
  · exact hunderscore
  · next hdot => exact hother hdot

/-- Characters of metric names may follow in exposed names, the dot as an underscore. -/
theorem isRest_undot {c : Char} (h : MetricName.grammar.isRest c = true) :
    exposedGrammar.isRest (undot c) = true :=
  undot_of rfl fun hdot => by simpa [MetricName.grammar, exposedGrammar, hdot] using h

/-- What may come first in metric names is no dot, and may come first in exposed names. -/
theorem isFirst_undot {c : Char} (h : MetricName.grammar.isFirst c = true) :
    exposedGrammar.isFirst (undot c) = true :=
  undot_of rfl fun _ => h

theorem dot_not_mem_exposed (name : String) : '.' ∉ (exposed name).toList := by
  intro hdot
  rw [toList_exposed] at hdot
  obtain ⟨c, -, hc⟩ := List.mem_map.1 hdot
  unfold undot at hc
  split at hc
  · cases hc
  · contradiction

/-- Exactly the names without dots are exposed as they are. -/
theorem exposed_eq_self_iff {name : String} : exposed name = name ↔ '.' ∉ name.toList := by
  constructor
  · intro h
    rw [← h]
    exact dot_not_mem_exposed name
  · intro hdot
    have hsame : ∀ c ∈ name.toList, undot c = c := fun c hc => if_neg fun (heq : c = '.') => hdot (heq ▸ hc)
    rw [exposed, List.map_congr_left hsame, List.map_id', String.ofList_toList]

theorem accepts_map_undot {name : List Char} (h : MetricName.grammar.accepts name = true) :
    exposedGrammar.accepts (name.map undot) = true :=
  Grammar.accepts_map (fun _ => isFirst_undot) (fun _ => isRest_undot) h

end Naming

/-! ## Names of families -/

namespace MeasureUnit

/-- The characters of a unit may follow in exposed names, but for the dot. -/
theorem all_isRest_iff (u : MeasureUnit) :
    u.name.toList.all exposedGrammar.isRest = true ↔ '.' ∉ u.name.toList := by
  obtain ⟨-, -, -, hsupported⟩ := UnitName.charsProblem?_eq_none_iff.1 u.legal
  rw [List.all_eq_true] at hsupported ⊢
  constructor
  · intro hall hdot
    have hrest := hall '.' hdot
    revert hrest
    decide
  · intro hdot c hc
    have hne : c ≠ '.' := fun heq => hdot (heq ▸ hc)
    have hc := hsupported c hc
    simpa [UnitName.isSupported, exposedGrammar, hne] using hc

end MeasureUnit

namespace Metadata

/-- **Names of metrics are exposed in the grammar.** -/
theorem accepts_exposedName (m : Metadata) : exposedGrammar.accepts m.exposedName.toList = true := by
  rw [exposedName, toList_exposed]
  exact accepts_map_undot (MetricName.problem?_eq_none_iff.1 m.legal).1

theorem dot_not_mem_exposedName (m : Metadata) : '.' ∉ m.exposedName.toList :=
  dot_not_mem_exposed m.name

/-- **Which names of families are in the grammar**: those without a dot in the unit. -/
theorem accepts_familyName_iff (m : Metadata) :
    exposedGrammar.accepts m.familyName.toList = true ↔ ∀ unit ∈ m.unit, '.' ∉ unit.name.toList := by
  have hname := m.accepts_exposedName
  unfold familyName
  cases m.unit with
  | none => simpa using hname
  | some unit =>
    simp only [Option.mem_some_iff, forall_eq']
    split
    · next hends =>
      refine ⟨fun _ hdot => ?_, fun _ => hname⟩
      have hsuffix := (endsWith_iff.1 hends).subset
      rw [String.toList_append] at hsuffix
      exact m.dot_not_mem_exposedName (hsuffix (List.mem_append_right _ hdot))
    · have htext : (m.exposedName ++ "_" ++ unit.name).toList =
          m.exposedName.toList ++ '_' :: unit.name.toList := by simp
      rw [htext, Grammar.accepts_append hname, ← unit.all_isRest_iff]
      rfl

end Metadata

/-! ## Names of samples -/

/-- The endings of the names of samples may follow in exposed names. -/
theorem all_isRest_of_mem_sampleEndings {ending : String} (h : ending ∈ sampleEndings) :
    ending.toList.all exposedGrammar.isRest = true := by
  revert ending
  decide

theorem dot_not_mem_of_mem_sampleEndings {ending : String} (h : ending ∈ sampleEndings) : '.' ∉ ending.toList := by
  revert ending
  decide

namespace Family

/-- **The names of a family are in the grammar of exposed names**: its own, and those of its samples. -/
def NamesAccepted (f : Family) : Prop :=
  exposedGrammar.accepts f.name.toList = true ∧
    ∀ sample ∈ f.samples, exposedGrammar.accepts sample.name.toList = true

theorem namesAccepted_iff {s : Snapshot} {f : Family} (hf : ofSnapshot s = .ok f) :
    f.NamesAccepted ↔ ∀ unit ∈ s.metadata.unit, '.' ∉ unit.name.toList := by
  rw [NamesAccepted, name_of_ofSnapshot hf, ← s.metadata.accepts_familyName_iff]
  refine and_iff_left_of_imp fun hfamily sample hsample => ?_
  obtain ⟨ending, hending, hname⟩ := exists_ending_of_mem_samples hf hsample
  rw [hname, name_of_ofSnapshot hf, String.toList_append, Grammar.accepts_append hfamily]
  exact all_isRest_of_mem_sampleEndings hending

/-- **Which metrics are exposed under names of the grammar**, if all timestamps that scrapes see are in range:
those whose unit has no dot. Then a metric has a family if the counts of its buckets can be added up. -/
theorem exposed_names_iff {s : Snapshot}
    (hshown : ∀ p ∈ s.points, ∀ t ∈ p.shownTimestamps, t.number.InRange) :
    ((∃ f, ofSnapshot s = .ok f) ↔ ∀ p ∈ s.points, p.measurement.CountsAdd) ∧
      ∀ f, ofSnapshot s = .ok f →
        (f.NamesAccepted ↔ ∀ unit ∈ s.metadata.unit, '.' ∉ unit.name.toList) := by
  exact ⟨exists_ofSnapshot_iff_of_shown hshown, fun f hf => namesAccepted_iff hf⟩

end Family

/-! ### A unit without a dot and one with a dot -/

namespace Snapshot

/-- A level has no timestamps and no buckets, so nothing can be too large. -/
theorem shown_level {name : String} {unit : Option MeasureUnit} {n : Nat}
    {legal : MetricName.problem? name = none} :
    ∀ p ∈ (level name unit n legal).points,
      (∀ t ∈ p.shownTimestamps, t.number.InRange) ∧ p.measurement.CountsAdd := by
  intro p hp
  obtain rfl := List.mem_singleton.1 hp
  refine ⟨fun t ht => ?_, trivial⟩
  obtain rfl := List.mem_singleton.1 ht
  exact Number.inRange_of_le (Nat.zero_le _)

def dotted : Snapshot :=
  level "depth" (some ⟨"a.b", by decide⟩) 1 (by decide)

end Snapshot

namespace Family

open Snapshot (level dotted shown_level)

/-- A time in seconds is exposed under names of the grammar. -/
theorem exposed_names_wait :
    ∃ f, ofSnapshot (level "wait.time" (some .seconds) 1 (by decide)) = .ok f ∧ f.NamesAccepted := by
  obtain ⟨hexists, haccepted⟩ := exposed_names_iff fun p hp => (shown_level p hp).1
  obtain ⟨f, hf⟩ := hexists.2 fun p hp => (shown_level p hp).2
  exact ⟨f, hf, (haccepted f hf).2 (by decide)⟩

/-- **A unit with a dot is exposed with the dot**, and the name of the family is not in the grammar. -/
theorem dotted_unit_exposed :
    (∀ p ∈ dotted.points, ∀ t ∈ p.shownTimestamps, t.number.InRange) ∧
      ∃ f, ofSnapshot dotted = .ok f ∧ f.name = "depth_a.b" ∧ ¬f.NamesAccepted := by
  obtain ⟨f, hf⟩ := exists_ofSnapshot_iff.2 fun p hp => DataPoint.convertible_iff.2 (shown_level p hp)
  refine ⟨fun p hp => (shown_level p hp).1, f, hf, ?_, ?_⟩
  · rw [name_of_ofSnapshot hf]
    decide
  · rw [namesAccepted_iff hf]
    decide

end Family

end Telemetry
