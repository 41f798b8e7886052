import Telemetry.Proofs.Naming.Lead
import Telemetry.Proofs.Pipeline.Collecting

/-!
# Renamed collections

A text in front of all names of a collection changes the names and nothing else. The exposed names have the exposed text
in front of them, so they are as different as before, and in the same order. What can fail is a single name, which has
to be legal again; no name can become that of another metric. Two texts in front of names, one after the other, are one.

## Main definitions

* `Snapshot.Renamed`: snapshots that differ in their names only, by a text in front

## Main results

* `Metadata.withNamePrefix_eq_ok_iff`, `Metadata.exists_withNamePrefix_iff`, `Metadata.of_withNamePrefix_eq_error`:
  which metadata are renamed, when, and why they are not
* `Snapshot.withNamePrefix_eq_ok_iff`: into which snapshot one is renamed
* `Collection.withNamePrefix_eq_ok_iff`: into which collection one is renamed
* `Collection.withNamePrefix_renames`: renaming a collection
-/

namespace Telemetry

open Naming (exposed reservedSuffixes)

/-! ## Metadata -/

namespace Metadata

variable {m m' : Metadata} {lead : String} {e : Error}

/-- **Which metadata are renamed**: those that have the text in front of the name, with the help and the unit. -/
theorem withNamePrefix_eq_ok_iff :
    m.withNamePrefix lead = .ok m' ↔ m'.name = lead ++ m.name ∧ m'.help = m.help ∧ m'.unit = m.unit := by
  constructor
  · exact of_withNamePrefix_eq_ok
  · rintro ⟨hname, hhelp, hunit⟩
    have hargument : m'.unitArgument = m.unitArgument := by
      rw [unitArgument, unitArgument, hunit]
    have hmake := m'.make_parts
    rw [hname, hhelp, hargument] at hmake
    exact hmake

/-- A text can be put in front of a name if the longer name is legal. -/
theorem exists_withNamePrefix_iff :
    (∃ m', m.withNamePrefix lead = .ok m') ↔ MetricName.problem? (lead ++ m.name) = none := by
  simp only [withNamePrefix_eq_ok_iff]
  constructor
  · rintro ⟨m', hname, -⟩
    rw [← hname]
    exact m'.legal
  · intro hlegal
    exact ⟨⟨lead ++ m.name, m.help, m.unit, hlegal⟩, rfl, rfl, rfl⟩

/-- **Why a text cannot be put in front of a name**: the longer name is illegal. -/
theorem of_withNamePrefix_eq_error (h : m.withNamePrefix lead = .error e) :
    ∃ problem, MetricName.problem? (lead ++ m.name) = some problem ∧
      e = .naming (.illegalMetric (lead ++ m.name) problem) := by
  cases hproblem : MetricName.problem? (lead ++ m.name) with
  | none =>
    obtain ⟨m', hm'⟩ := exists_withNamePrefix_iff.2 hproblem
    cases h.symm.trans hm'
  | some problem =>
    have hcheck : checkName (.text (lead ++ m.name)) =
        .error (.naming (.illegalMetric (lead ++ m.name) problem)) := by
      simp only [checkName]
      split
      · next other hother =>
        cases hother.symm.trans hproblem
        rfl
      · next hnone => cases hnone.symm.trans hproblem
    rw [withNamePrefix, make, hcheck] at h
    cases h
    exact ⟨problem, rfl, rfl⟩

end Metadata

/-! ## Snapshots -/

namespace Snapshot

variable {s t u : Snapshot} {lead more : String} {e : Error}

/-- **Snapshots that differ in their names only**: the second has a text in front of the name, which is exposed in front
of the exposed name. -/
structure Renamed (lead : String) (s t : Snapshot) : Prop where
  name : t.name = lead ++ s.name
  exposedName : t.exposedName = exposed lead ++ s.exposedName
  kind : t.kind = s.kind
  help : t.metadata.help = s.metadata.help
  unit : t.metadata.unit = s.metadata.unit
  points : t.points = s.points

/-- A text in front of the name is one in front of the exposed name. -/
theorem exposedName_of_name (h : t.name = lead ++ s.name) : t.exposedName = exposed lead ++ s.exposedName :=
  (congrArg exposed h).trans (exposed_append lead s.name)

/-- **Into which snapshot one is renamed.** Its points are in order already. -/
theorem withNamePrefix_eq_ok_iff : s.withNamePrefix lead = .ok t ↔ Renamed lead s t := by
  rw [withNamePrefix, bind_eq_ok_iff]
  simp only [ofPoints_eq_ok_iff, settle_of_chained s.ordered]
  constructor
  · rintro ⟨metadata, hmetadata, hkind, rfl, hpoints⟩
    obtain ⟨hname, hhelp, hunit⟩ := Metadata.withNamePrefix_eq_ok_iff.1 hmetadata
    exact ⟨hname, exposedName_of_name hname, hkind, hhelp, hunit, hpoints⟩
  · intro h
    exact ⟨t.metadata, Metadata.withNamePrefix_eq_ok_iff.2 ⟨h.name, h.help, h.unit⟩, h.kind, rfl, h.points⟩

/-- A text can be put in front of the name of a snapshot if it can be put in front of the name of its metadata. -/
theorem exists_withNamePrefix_iff :
    (∃ t, s.withNamePrefix lead = .ok t) ↔ ∃ metadata, s.metadata.withNamePrefix lead = .ok metadata := by
  rw [← congrFun (Change.apply_prefixed lead) s]
  constructor
  · rintro ⟨t, h⟩
    exact ⟨t.metadata, (Change.of_apply_eq_ok h).1⟩
  · rintro ⟨metadata, h⟩
    exact (Change.lawful_prefixed lead).exists_apply_eq_ok h fun p _ => ⟨p, rfl⟩

/-- What cannot be renamed about a snapshot is its metadata. -/
theorem metadata_of_withNamePrefix_eq_error (h : s.withNamePrefix lead = .error e) :
    s.metadata.withNamePrefix lead = .error e := by
  rw [← congrFun (Change.apply_prefixed lead) s] at h
  rcases (Change.lawful_prefixed lead).of_apply_eq_error h with hmetadata | ⟨p, -, hp⟩
  · exact hmetadata
  · cases hp

/-- **Two texts in front of a name are one.** -/
theorem Renamed.renamed_iff (h : Renamed lead s t) : Renamed more t u ↔ Renamed (more ++ lead) s u := by
  have hname : more ++ t.name = more ++ lead ++ s.name := by
    rw [h.name, String.append_assoc]
  constructor
  · intro h'
    have hlong := h'.name.trans hname
    exact ⟨hlong, exposedName_of_name hlong, h'.kind.trans h.kind, h'.help.trans h.help, h'.unit.trans h.unit,
      h'.points.trans h.points⟩
  · intro h'
    have hlong := h'.name.trans hname.symm
    exact ⟨hlong, exposedName_of_name hlong, h'.kind.trans h.kind.symm, h'.help.trans h.help.symm,
      h'.unit.trans h.unit.symm, h'.points.trans h.points.symm⟩

/-- Texts are ordered as they are without what they start with. -/
theorem append_lt_append {a b : String} (h : a < b) (lead : String) : lead ++ a < lead ++ b := by
  rw [String.lt_iff, String.toList_append, String.toList_append]
  exact List.append_left_lt (String.lt_iff.1 h)

/-- **Renamed snapshots are in the same order.** -/
theorem increasing_of_renamed {ss ts : List Snapshot} (h : List.Forall₂ (Renamed lead) ss ts)
    (hss : Increasing nameOrder ss) : Increasing nameOrder ts := by
  have hnames : ts.map Snapshot.exposedName = (ss.map Snapshot.exposedName).map (exposed lead ++ ·) := by
    rw [List.map_map, ← List.forall₂_eq_eq_eq, List.forall₂_map_left_iff, List.forall₂_map_right_iff]
    exact h.flip.imp fun t s hst => hst.exposedName
  rw [Collection.increasing_nameOrder_iff] at hss ⊢
  rw [hnames]
  exact hss.map _ fun a b hab => append_lt_append hab (exposed lead)

end Snapshot

/-! ## Collections -/

namespace Collection

open Snapshot (Renamed)

variable {c d : Collection} {lead more : String}

theorem withNamePrefix_eq_changed (c : Collection) (lead : String) :
    c.withNamePrefix lead = changed (Change.prefixed lead).apply c := by
  rw [Change.apply_prefixed]
  rfl

/-- What becomes of the snapshots is a collection as it is. -/
theorem ofSnapshots_of_renamed {ts : List Snapshot} (h : List.Forall₂ (Renamed lead) c.snapshots ts) :
    ∃ d, ofSnapshots ts = .ok d ∧ d.snapshots = ts := by
  have hincreasing := Snapshot.increasing_of_renamed h c.increasing
  exact ⟨⟨ts, hincreasing⟩, ofSnapshots_snapshots ⟨ts, hincreasing⟩, rfl⟩

/-- Snapshots renamed one after the other are renamed one by one. -/
theorem changeAll_withNamePrefix_eq_ok_iff {ss ts : List Snapshot} :
    changeAll (·.withNamePrefix lead) ss = .ok ts ↔ List.Forall₂ (Renamed lead) ss ts := by
  rw [changeAll_eq_ok_iff]
  simp only [Snapshot.withNamePrefix_eq_ok_iff]

/-- **Into which collection one is renamed**: the one that has the renamed snapshots, in their order. -/
theorem withNamePrefix_eq_ok_iff :
    c.withNamePrefix lead = .ok d ↔ List.Forall₂ (Renamed lead) c.snapshots d.snapshots := by
  rw [withNamePrefix, bind_eq_ok_iff]
  simp only [changeAll_withNamePrefix_eq_ok_iff]
  constructor
  · rintro ⟨ts, hts, hd⟩
    obtain ⟨d', hd', rfl⟩ := ofSnapshots_of_renamed hts
    cases hd.symm.trans hd'
    exact hts
  · intro h
    exact ⟨d.snapshots, h, d.ofSnapshots_snapshots⟩

/-- **When a collection can be renamed**: if all longer names are legal. -/
theorem exists_withNamePrefix_iff :
    (∃ d, c.withNamePrefix lead = .ok d) ↔
      ∀ s ∈ c.snapshots, MetricName.problem? (lead ++ s.name) = none := by
  rw [withNamePrefix_eq_changed, (Change.lawful_prefixed lead).exists_changed_iff, Change.apply_prefixed]
  refine forall₂_congr fun s _ => ?_
  exact Snapshot.exists_withNamePrefix_iff.trans Metadata.exists_withNamePrefix_iff

/-- **Why a collection cannot be renamed**: a longer name is illegal. Names that are exposed alike are no cause. -/
theorem of_withNamePrefix_eq_error {e : Error} (h : c.withNamePrefix lead = .error e) :
    ∃ s ∈ c.snapshots, ∃ problem, MetricName.problem? (lead ++ s.name) = some problem ∧
      e = .naming (.illegalMetric (lead ++ s.name) problem) := by
  rcases bind_eq_error_iff.1 h with hchange | ⟨ts, hts, hd⟩
  · rw [changeAll_eq_mapM] at hchange
    obtain ⟨s, hs, hfails⟩ := exists_of_mapM_eq_error hchange
    exact ⟨s, hs, Metadata.of_withNamePrefix_eq_error (Snapshot.metadata_of_withNamePrefix_eq_error hfails)⟩
  · obtain ⟨d, hd', -⟩ := ofSnapshots_of_renamed (changeAll_withNamePrefix_eq_ok_iff.1 hts)
    cases hd.symm.trans hd'

theorem withNamePrefix_of_withNamePrefix_iff (h : c.withNamePrefix lead = .ok d) {e : Collection} :
    d.withNamePrefix more = .ok e ↔ c.withNamePrefix (more ++ lead) = .ok e := by
  rw [withNamePrefix_eq_ok_iff] at h
  rw [withNamePrefix_eq_ok_iff, withNamePrefix_eq_ok_iff]
  exact forall₂_iff_of_forall₂ h fun hst => hst.renamed_iff

/-- **Renaming a collection** succeeds exactly if all longer names are legal, and fails for an illegal name only, never
for two names that are exposed alike. Order, kinds, help texts, units and points stay as they are, and each exposed name
has the exposed text in front. What may stand in front of names makes one illegal exactly if the two meet in a reserved
suffix. Two texts in front, one after the other, are one. -/
theorem withNamePrefix_renames (c : Collection) (lead : String) :
    ((∃ d, c.withNamePrefix lead = .ok d) ↔
        ∀ s ∈ c.snapshots, MetricName.problem? (lead ++ s.name) = none) ∧
      (∀ e, c.withNamePrefix lead = .error e → e.category = .invalid ∧
        ∃ s ∈ c.snapshots, ∃ problem, MetricName.problem? (lead ++ s.name) = some problem ∧
          e = .naming (.illegalMetric (lead ++ s.name) problem)) ∧
      (∀ d, c.withNamePrefix lead = .ok d ↔ List.Forall₂ (Renamed lead) c.snapshots d.snapshots) ∧
      (mayLead lead = true → ∀ name, MetricName.problem? name = none →
        (MetricName.problem? (lead ++ name) ≠ none ↔
          ∃ start, start ≠ [] ∧ start <:+ lead.toList ∧ start ++ name.toList ∈ reservedSuffixes)) ∧
      ∀ d, c.withNamePrefix lead = .ok d → ∀ more e,
        d.withNamePrefix more = .ok e ↔ c.withNamePrefix (more ++ lead) = .ok e := by
  refine ⟨exists_withNamePrefix_iff, fun e h => ?_, fun d => withNamePrefix_eq_ok_iff, fun hlead name hname => ?_,
    fun d h more e => withNamePrefix_of_withNamePrefix_iff h⟩
  · obtain ⟨s, hs, problem, hproblem, rfl⟩ := of_withNamePrefix_eq_error h
    exact ⟨rfl, s, hs, problem, hproblem, rfl⟩
  · exact MetricName.problem?_append_ne_none_iff hlead hname

/-- A collection of one gauge, whose name is the end of a reserved suffix. -/
def fo : Collection where
  snapshots := [gauge ⟨"fo", none, none, by decide⟩ (.whole 1)]
  increasing := List.pairwise_singleton _ _

/-- One text can be put in front of the name; another one, which may stand in front of names as well, cannot. -/
theorem withNamePrefix_fo :
    (∃ d, fo.withNamePrefix "app." = .ok d) ∧
      mayLead "app_in" = true ∧ ∃ e, fo.withNamePrefix "app_in" = .error e ∧ e.category = .invalid := by
  obtain ⟨hlegal, -⟩ := withNamePrefix_renames fo "app."
  obtain ⟨hexists, hfails, -, hreserved, -⟩ := withNamePrefix_renames fo "app_in"
  have hlead : mayLead "app_in" = true := by decide
  have hillegal : MetricName.problem? ("app_in" ++ "fo") ≠ none :=
    (hreserved hlead "fo" (by decide)).2 ⟨['_', 'i', 'n'], List.cons_ne_nil _ _, ⟨['a', 'p', 'p'], rfl⟩, by decide⟩
  refine ⟨hlegal.2 (by decide), hlead, ?_⟩
  cases h : fo.withNamePrefix "app_in" with
  | ok d => exact absurd (hexists.1 ⟨d, h⟩ _ List.mem_cons_self) hillegal
  | error e => exact ⟨e, rfl, (hfails e h).1⟩

end Collection

end Telemetry
