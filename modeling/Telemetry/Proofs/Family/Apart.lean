import Telemetry.Proofs.Family.Series
import Telemetry.Proofs.Naming.Lead

/-!
# Families that stay apart

Metrics of a collection have different exposed names. Their families need not: a unit is appended to a name,
and what comes out may be the name of another family. The words that are appended for totals, creation times,
buckets and infos are reserved, so that no family has a name that ends with one of them; but the words for
counts and sums are not, and a family may have the name of the counts or sums of another.

The ending of a sample name is what stands behind the last underscore. So names of samples of two families are
the same only if one family has the name of the other with an ending, and that ending is one for counts or
sums. All other endings are reserved suffixes, and say of which family a sample is.

## Main definitions

* `Family.ApartFrom`: families that have different names and no series in common
* `Snapshot.Shadows`: a metric is exposed where another one has its counts or sums

## Main results

* `Metadata.reserved_not_suffix`: no family has a name that ends with a reserved suffix
* `Metadata.endings_of_append_eq`: which names of samples are the same
* `Metadata.reserved_suffix_iff`: which names of samples end with a reserved suffix
* `Family.reserved_suffixes_unambiguous`: reserved suffixes say what a sample is
* `Collection.pairwise_families_iff`: when the families of a collection stay apart
* `Collection.timings_alike`: they do not always
-/

namespace Telemetry

open Naming

/-! ## Names that end with a word -/

theorem endsWith_iff {s ending : String} : endsWith s ending = true ↔ ending.toList <:+ s.toList := by
  rw [endsWith, List.isSuffixOf_iff_suffix]

section Words

variable {xs ys word other : List Char}

/-- A text that ends with a word and a character before it either has it right behind its last underscore, or is
this word behind an underscore. -/
theorem eq_or_suffix_of_suffix {c : Char} (hword : '_' ∉ word) (h : c :: word <:+ xs ++ '_' :: other) :
    (c = '_' ∧ word = other) ∨ c :: word <:+ other := by
  obtain ⟨ys, heq⟩ := h
  rcases List.append_eq_append_iff.1 heq with ⟨as, -, hword'⟩ | ⟨bs, -, hother⟩
  · cases as with
    | nil => exact .inl (List.cons.inj hword')
    | cons d as =>
      obtain ⟨-, htail⟩ := List.cons.inj hword'
      refine absurd ?_ hword
      rw [htail]
      exact List.mem_append_right _ List.mem_cons_self
  · cases bs with
    | nil =>
      obtain ⟨hc, hsame⟩ := List.cons.inj hother
      exact .inl ⟨hc.symm, hsame.symm⟩
    | cons d bs =>
      obtain ⟨-, htail⟩ := List.cons.inj hother
      exact .inr ⟨bs, htail.symm⟩

/-- Texts with words behind an underscore say what the words are. -/
theorem append_word_inj (hword : '_' ∉ word) (hother : '_' ∉ other)
    (h : xs ++ '_' :: word = ys ++ '_' :: other) : xs = ys := by
  have hsuffix : '_' :: word <:+ ys ++ '_' :: other := ⟨xs, h⟩
  rcases eq_or_suffix_of_suffix hword hsuffix with ⟨-, rfl⟩ | hsuffix
  · exact List.append_cancel_right h
  · exact absurd (hsuffix.mem List.mem_cons_self) hother

end Words

/-! ## Names of families -/

theorem underscore_not_mem_of_mem_reservedWords {word : List Char} (h : word ∈ reservedWords) :
    '_' ∉ word := by
  revert word
  decide

/-- What has no underscore is exposed from itself only. -/
theorem eq_of_map_undot_eq {chars word : List Char} (hword : '_' ∉ word) (h : chars.map undot = word) :
    chars = word := by
  rw [← h]
  refine (List.map_id' chars).symm.trans (List.map_congr_left fun c hc => ?_)
  have hmem : undot c ∈ word := h ▸ List.mem_map_of_mem hc
  unfold undot at hmem ⊢
  by_cases hdot : c = '.'
  · rw [if_pos hdot] at hmem
    exact absurd hmem hword
  · rw [if_neg hdot]

/-- **What is exposed with a reserved suffix at its end has one**, with a dot or with an underscore. -/
theorem exists_reserved_suffix_of_map_undot {name suffix : List Char} (h : suffix ∈ reservedSuffixes)
    (hsuffix : suffix <:+ name.map undot) : ∃ other ∈ reservedSuffixes, other <:+ name := by
  obtain ⟨separator, hseparator, word, hword, rfl⟩ := mem_reservedSuffixes_iff.1 h
  obtain ⟨chars, hchars, hmap⟩ := List.suffix_map_iff.1 hsuffix
  obtain ⟨c, tail, rfl, hc, htail⟩ := List.map_eq_cons_iff.1 hmap.symm
  have htail := eq_of_map_undot_eq (underscore_not_mem_of_mem_reservedWords hword) htail
  subst htail
  have hc : c ∈ ['_', '.'] := by
    unfold undot at hc
    by_cases hdot : c = '.'
    · simp [hdot]
    · rw [if_neg hdot] at hc
      exact hc ▸ hseparator
  exact ⟨c :: tail, mem_reservedSuffixes_iff.2 ⟨c, hc, tail, hword, rfl⟩, hchars⟩

namespace Metadata

/-- A name ends with no reserved suffix, and neither does its exposed name. -/
theorem reserved_not_suffix_exposedName (m : Metadata) {suffix : List Char} (h : suffix ∈ reservedSuffixes) :
    ¬suffix <:+ m.exposedName.toList := by
  intro hsuffix
  rw [exposedName, toList_exposed] at hsuffix
  obtain ⟨other, hother, hends⟩ := exists_reserved_suffix_of_map_undot h hsuffix
  have hfree := reservedSuffix?_eq_none_iff.1 (MetricName.problem?_eq_none_iff.1 m.legal).2
  exact hfree other hother hends

/-- **No family has a name that ends with a reserved suffix**, since no unit does or is a reserved word. -/
theorem reserved_not_suffix (m : Metadata) {suffix : List Char} (h : suffix ∈ reservedSuffixes) :
    ¬suffix <:+ m.familyName.toList := by
  unfold familyName
  cases m.unit with
  | none => exact m.reserved_not_suffix_exposedName h
  | some unit =>
    dsimp only
    split
    · exact m.reserved_not_suffix_exposedName h
    · intro hsuffix
      have htext : (m.exposedName ++ "_" ++ unit.name).toList =
          m.exposedName.toList ++ '_' :: unit.name.toList := by simp
      obtain ⟨-, hreserved, hnone, -⟩ := UnitName.charsProblem?_eq_none_iff.1 unit.legal
      obtain ⟨separator, -, word, hword, rfl⟩ := mem_reservedSuffixes_iff.1 h
      rw [htext] at hsuffix
      rcases eq_or_suffix_of_suffix (underscore_not_mem_of_mem_reservedWords hword) hsuffix with
        ⟨-, rfl⟩ | hsuffix
      · exact hreserved hword
      · exact reservedSuffix?_eq_none_iff.1 hnone _ h hsuffix

/-- Whether the unit is appended to the exposed name. -/
def appendsUnit (m : Metadata) : Prop :=
  m.familyName ≠ m.exposedName

end Metadata

/-! ## Names of samples -/

def sampleEndings : List String :=
  ["", "_info", "_total", "_created", "_bucket", "_count", "_sum"]

/-- The endings of the names of samples that are not reserved. -/
def freeEndings : List String :=
  ["_count", "_sum"]

/-- An ending is empty, or a word behind an underscore, which is a reserved suffix or free. -/
theorem eq_empty_or_word {ending : String} (h : ending ∈ sampleEndings) :
    ending = "" ∨ ∃ word, ending.toList = '_' :: word ∧ '_' ∉ word ∧
      (ending.toList ∈ reservedSuffixes ∨ ending ∈ freeEndings) := by
  simp only [sampleEndings, List.mem_cons, List.not_mem_nil, or_false] at h
  rcases h with rfl | rfl | rfl | rfl | rfl | rfl | rfl
  · exact .inl rfl
  all_goals exact .inr ⟨_, rfl, by decide, by decide⟩

/-- Only with a free ending is the name of a family that of another one with an ending. -/
theorem Metadata.mem_freeEndings_of_eq_append {m n : Metadata} {ending : String}
    (hending : ending ∈ sampleEndings) (hne : m.familyName ≠ n.familyName)
    (h : m.familyName = n.familyName ++ ending) : ending ∈ freeEndings := by
  rcases eq_empty_or_word hending with rfl | ⟨word, -, -, hreserved | hfree⟩
  · rw [String.append_empty] at h
    exact absurd h hne
  · -- The name would end with a reserved suffix.
    refine absurd ?_ (m.reserved_not_suffix hreserved)
    rw [h, String.toList_append]
    exact List.suffix_append _ _
  · exact hfree

/-- **Which names of samples are the same**: those of one family without an ending, and of another with a
free one. -/
theorem Metadata.endings_of_append_eq {m n : Metadata} {ending other : String}
    (hending : ending ∈ sampleEndings) (hother : other ∈ sampleEndings)
    (hne : m.familyName ≠ n.familyName) (h : m.familyName ++ ending = n.familyName ++ other) :
    (ending = "" ∧ other ∈ freeEndings) ∨ (other = "" ∧ ending ∈ freeEndings) := by
  rcases eq_empty_or_word hending with rfl | ⟨word, hchars, hword, -⟩
  · rw [String.append_empty] at h
    exact .inl ⟨rfl, mem_freeEndings_of_eq_append hother hne h⟩
  · rcases eq_empty_or_word hother with rfl | ⟨otherWord, hotherChars, hotherWord, -⟩
    · rw [String.append_empty] at h
      exact .inr ⟨rfl, mem_freeEndings_of_eq_append hending hne.symm h.symm⟩
    · -- Behind their last underscores the names end differently, or in front of them they are the same.
      have hlists := congrArg String.toList h
      rw [String.toList_append, String.toList_append, hchars, hotherChars] at hlists
      exact absurd (String.ext (append_word_inj hword hotherWord hlists)) hne

/-- Of an ending and a reserved suffix, neither is the end of the other, unless they are the same. -/
theorem toList_eq_of_suffix : ∀ ending ∈ sampleEndings, ∀ suffix ∈ reservedSuffixes, ending ≠ "" →
    suffix <:+ ending.toList ∨ ending.toList <:+ suffix → ending.toList = suffix := by
  decide

/-- **Which names of samples end with a reserved suffix**: those that have it for their ending. -/
theorem Metadata.reserved_suffix_iff (m : Metadata) {ending : String} {suffix : List Char}
    (hending : ending ∈ sampleEndings) (hsuffix : suffix ∈ reservedSuffixes) :
    suffix <:+ (m.familyName ++ ending).toList ↔ ending.toList = suffix := by
  rw [String.toList_append]
  constructor
  · intro hends
    by_cases hempty : ending = ""
    · rw [hempty, String.toList_empty, List.append_nil] at hends
      exact absurd hends (m.reserved_not_suffix hsuffix)
    · have hboth := List.suffix_or_suffix_of_suffix hends (List.suffix_append m.familyName.toList ending.toList)
      exact toList_eq_of_suffix ending hending suffix hsuffix hempty hboth
  · rintro rfl
    exact List.suffix_append _ _

/-! ## Series of different families -/

namespace PointClass

theorem mem_sampleEndings_of_mem_endings (c : PointClass) :
    ∀ ending ∈ c.endings, ending ∈ sampleEndings := by
  cases c <;> decide

theorem extraEnding_mem_sampleEndings (c : PointClass) : c.extraEnding ∈ sampleEndings := by
  cases c <;> decide

theorem extraEnding_not_mem_freeEndings (c : PointClass) : c.extraEnding ∉ freeEndings := by
  cases c <;> decide

end PointClass

namespace DataPoint

variable {p : DataPoint} {family : String} {a : Series}

/-- **What the names of series are**: names of families with endings. Those with a free ending have the labels
of their point as they are. -/
theorem exists_ending_of_mem_series (h : a ∈ p.series family) :
    ∃ ending ∈ sampleEndings, a.name = family ++ ending ∧
      (ending ∈ freeEndings → ending ∈ p.endings ∧ a.labels = p.exposed) := by
  rcases List.mem_append.1 h with h | h
  · obtain ⟨value, -, rfl⟩ := List.mem_map.1 h
    refine ⟨_, p.pointClass.extraEnding_mem_sampleEndings, rfl, fun hfree => ?_⟩
    exact absurd hfree p.pointClass.extraEnding_not_mem_freeEndings
  · obtain ⟨ending, hending, rfl⟩ := List.mem_map.1 h
    have hclass := p.pointClass.mem_sampleEndings_of_mem_endings ending (p.endings_sublist.mem hending)
    exact ⟨ending, hclass, rfl, fun _ => ⟨hending, rfl⟩⟩

end DataPoint

namespace Snapshot

/-- **A metric is exposed where another one has its counts or sums**: its family has their name, and a sample
without an ending has the labels of a point of the other. -/
def Shadows (s t : Snapshot) : Prop :=
  ∃ ending ∈ freeEndings, s.metadata.familyName = t.metadata.familyName ++ ending ∧
    ∃ a ∈ s.series, a.name = s.metadata.familyName ∧
      ∃ p ∈ t.points, ending ∈ p.endings ∧ sameEntries a.labels p.exposed = true

instance (s t : Snapshot) : Decidable (s.Shadows t) :=
  inferInstanceAs (Decidable (∃ ending ∈ freeEndings, _ = _ ++ ending ∧
    ∃ a ∈ s.series, _ ∧ ∃ p ∈ t.points, _ ∧ _))

variable {s t : Snapshot} {a b : Series}

theorem Shadows.exists_same (h : s.Shadows t) : ∃ a ∈ s.series, ∃ b ∈ t.series, a.same b = true := by
  obtain ⟨ending, -, hname, a, ha, haname, p, hp, hending, hlabels⟩ := h
  refine ⟨a, ha, p.plainSeries t.metadata.familyName ending, ?_, ?_⟩
  · exact List.mem_flatMap.2 ⟨p, hp, List.mem_append_right _ (List.mem_map_of_mem hending)⟩
  · exact Series.same_iff.2 ⟨haname.trans hname, hlabels⟩

/-- **Metrics with a series in common**, whose families have different names: one of them is exposed where the
other one has its counts or sums. -/
theorem shadows_of_same (hne : s.metadata.familyName ≠ t.metadata.familyName) (ha : a ∈ s.series)
    (hb : b ∈ t.series) (h : a.same b = true) : s.Shadows t ∨ t.Shadows s := by
  have hsymm := Series.same_symm (nodup_keys_of_mem_series ha) (nodup_keys_of_mem_series hb) h
  obtain ⟨hnames, hlabels⟩ := Series.same_iff.1 h
  obtain ⟨-, hsymm⟩ := Series.same_iff.1 hsymm
  obtain ⟨p, hp, hap⟩ := List.mem_flatMap.1 ha
  obtain ⟨q, hq, hbq⟩ := List.mem_flatMap.1 hb
  obtain ⟨ending, hending, haname, hafree⟩ := DataPoint.exists_ending_of_mem_series hap
  obtain ⟨other, hother, hbname, hbfree⟩ := DataPoint.exists_ending_of_mem_series hbq
  rw [haname, hbname] at hnames
  rcases Metadata.endings_of_append_eq hending hother hne hnames with ⟨rfl, hfree⟩ | ⟨rfl, hfree⟩
  · obtain ⟨hotherq, hblabels⟩ := hbfree hfree
    rw [String.append_empty] at haname hnames
    exact .inl ⟨other, hfree, hnames, a, ha, haname, q, hq, hotherq, hblabels ▸ hlabels⟩
  · obtain ⟨hendingp, halabels⟩ := hafree hfree
    rw [String.append_empty] at hbname hnames
    exact .inr ⟨ending, hfree, hnames.symm, b, hb, hbname, p, hp, hendingp, halabels ▸ hsymm⟩

end Snapshot

/-! ## The families of a collection -/

/-- **Families that stay apart**: they have different names, and no series in common. -/
def Family.ApartFrom (f g : Family) : Prop :=
  f.name ≠ g.name ∧ ∀ a ∈ f.samples, ∀ b ∈ g.samples, a.series.same b.series = false

section Families

variable {s t : Snapshot} {f g : Family}

theorem Family.name_of_ofSnapshot (hf : Family.ofSnapshot s = .ok f) : f.name = s.metadata.familyName :=
  (Family.ofSnapshot_eq_ok_iff.1 hf).2.1

theorem Family.forall_samples_iff (hf : Family.ofSnapshot s = .ok f) (hg : Family.ofSnapshot t = .ok g) :
    (∀ a ∈ f.samples, ∀ b ∈ g.samples, a.series.same b.series = false) ↔
      ∀ a ∈ s.series, ∀ b ∈ t.series, a.same b = false := by
  rw [← map_series_samples hf, ← map_series_samples hg]
  simp only [List.forall_mem_map]

/-- When the families of two metrics stay apart. -/
theorem Family.apartFrom_iff (hf : Family.ofSnapshot s = .ok f) (hg : Family.ofSnapshot t = .ok g) :
    f.ApartFrom g ↔
      s.metadata.familyName ≠ t.metadata.familyName ∧ ¬s.Shadows t ∧ ¬t.Shadows s := by
  rw [ApartFrom, name_of_ofSnapshot hf, name_of_ofSnapshot hg, forall_samples_iff hf hg]
  refine and_congr_right fun hne => ⟨fun h => ⟨fun hshadows => ?_, fun hshadows => ?_⟩, fun h a ha b hb => ?_⟩
  · obtain ⟨a, ha, b, hb, hsame⟩ := hshadows.exists_same
    rw [h a ha b hb] at hsame
    cases hsame
  · obtain ⟨b, hb, a, ha, hsame⟩ := hshadows.exists_same
    have hsame := Series.same_symm (Snapshot.nodup_keys_of_mem_series hb)
      (Snapshot.nodup_keys_of_mem_series ha) hsame
    rw [h a ha b hb] at hsame
    cases hsame
  · rw [← Bool.not_eq_true]
    intro hsame
    rcases Snapshot.shadows_of_same hne ha hb hsame with hshadows | hshadows
    · exact h.1 hshadows
    · exact h.2 hshadows

/-- Samples have the name of their family with an ending. -/
theorem Family.exists_ending_of_mem_samples {a : Sample} (hf : Family.ofSnapshot s = .ok f) (ha : a ∈ f.samples) :
    ∃ ending ∈ sampleEndings, a.name = f.name ++ ending := by
  have hseries : a.series ∈ s.series := by
    rw [← map_series_samples hf]
    exact List.mem_map_of_mem ha
  obtain ⟨p, -, hp⟩ := List.mem_flatMap.1 hseries
  obtain ⟨ending, hending, hname, -⟩ := DataPoint.exists_ending_of_mem_series hp
  exact ⟨ending, hending, by rw [name_of_ofSnapshot hf, ← hname]; rfl⟩

/-- Samples whose names are the same and end with a reserved suffix are of families with one name. -/
theorem Family.name_eq_of_reserved_suffix {a b : Sample} {suffix : List Char} (hf : Family.ofSnapshot s = .ok f)
    (hg : Family.ofSnapshot t = .ok g) (ha : a ∈ f.samples) (hb : b ∈ g.samples) (hnames : b.name = a.name)
    (hsuffix : suffix ∈ reservedSuffixes) (hends : suffix <:+ a.name.toList) : g.name = f.name := by
  obtain ⟨ending, hending, haname⟩ := exists_ending_of_mem_samples hf ha
  obtain ⟨other, hother, hbname⟩ := exists_ending_of_mem_samples hg hb
  rw [name_of_ofSnapshot hf] at haname ⊢
  rw [name_of_ofSnapshot hg] at hbname ⊢
  have haends := hends
  rw [haname, s.metadata.reserved_suffix_iff hending hsuffix] at haends
  rw [← hnames, hbname, t.metadata.reserved_suffix_iff hother hsuffix] at hends
  have hendings : ending = other := String.toList_injective (haends.trans hends.symm)
  rw [haname, hbname, hendings] at hnames
  exact (String.append_left_inj other).1 hnames

/-- **Reserved suffixes say what a sample is.** The name of a family ends with none of them. The name of a sample
ends with one exactly if this is its ending, and then all families that have samples of this name have one name. -/
theorem Family.reserved_suffixes_unambiguous (s : Snapshot) :
    ((∃ f, ofSnapshot s = .ok f) ↔ ∀ p ∈ s.points, p.Convertible) ∧
      ∀ f, ofSnapshot s = .ok f →
        f.name = s.metadata.familyName ∧
        (∀ suffix ∈ reservedSuffixes, ¬suffix <:+ f.name.toList) ∧
        ∀ a ∈ f.samples, ∃ ending ∈ sampleEndings, a.name = f.name ++ ending ∧
          ∀ suffix ∈ reservedSuffixes, (suffix <:+ a.name.toList ↔ ending.toList = suffix) ∧
            (suffix <:+ a.name.toList → ∀ t g, ofSnapshot t = .ok g →
              ∀ b ∈ g.samples, b.name = a.name → g.name = f.name) := by
  refine ⟨exists_ofSnapshot_iff, fun f hf => ?_⟩
  have hname := name_of_ofSnapshot hf
  refine ⟨hname, fun suffix hsuffix => ?_, fun a ha => ?_⟩
  · rw [hname]
    exact s.metadata.reserved_not_suffix hsuffix
  · obtain ⟨ending, hending, haname⟩ := exists_ending_of_mem_samples hf ha
    refine ⟨ending, hending, haname, fun suffix hsuffix => ⟨?_, fun hends t g hg b hb hnames => ?_⟩⟩
    · rw [haname, hname]
      exact s.metadata.reserved_suffix_iff hending hsuffix
    · exact name_eq_of_reserved_suffix hf hg ha hb hnames hsuffix hends

end Families

namespace Collection

/-- **When the families of a collection stay apart**: exactly if no unit that is appended to a name leads to
the name of another family, and no metric is exposed where another one has its counts or sums. -/
theorem pairwise_families_iff {c : Collection}
    (hconvertible : ∀ s ∈ c.snapshots, ∀ p ∈ s.points, p.Convertible) :
    ∃ families, c.families = .ok families ∧
      (families.Pairwise Family.ApartFrom ↔
        c.snapshots.Pairwise fun s t =>
          (s.metadata.appendsUnit ∨ t.metadata.appendsUnit →
            s.metadata.familyName ≠ t.metadata.familyName) ∧ ¬s.Shadows t ∧ ¬t.Shadows s) := by
  obtain ⟨families, hfamilies⟩ :=
    exists_forall₂ fun s hs => Family.exists_ofSnapshot_iff.2 (hconvertible s hs)
  refine ⟨families, families_eq_ok_iff.2 hfamilies, ?_⟩
  have hapart : families.Pairwise Family.ApartFrom ↔ c.snapshots.Pairwise fun s t =>
      s.metadata.familyName ≠ t.metadata.familyName ∧ ¬s.Shadows t ∧ ¬t.Shadows s :=
    (pairwise_iff_of_forall₂ hfamilies fun hf hg => (Family.apartFrom_iff hf hg).symm).symm
  rw [hapart]
  constructor
  · intro h
    exact h.imp fun hst => ⟨fun _ => hst.1, hst.2⟩
  · intro h
    refine (c.distinct_snapshots.and h).imp fun {s t} hst => ⟨?_, hst.2.2⟩
    by_cases happends : s.metadata.appendsUnit ∨ t.metadata.appendsUnit
    · exact hst.2.1 happends
    · obtain ⟨hs, ht⟩ := not_or.1 happends
      rw [not_not.1 hs, not_not.1 ht]
      exact hst.1

end Collection

/-! ### Families that stay apart and families that do not -/

def Snapshot.unlabelled (kind : Kind) (metadata : Metadata) (measurement : Measurement)
    (unitAllowed : metadata.hasUnit = true → kind.allowsUnit = true)
    (classed : measurement.pointClass = kind.pointClass) : Snapshot where
  kind := kind
  metadata := metadata
  points := [.ofParts .empty .zero .zero measurement]
  unitAllowed := unitAllowed
  classed := by simpa [DataPoint.ofParts, DataPoint.pointClass] using classed
  ordered := chained_singleton _

def Snapshot.level (name : String) (unit : Option MeasureUnit) (n : Nat)
    (legal : MetricName.problem? name = none) : Snapshot :=
  unlabelled .gauge ⟨name, none, unit, legal⟩ (.gauge (.whole n) none) (fun _ => rfl) rfl

/-- A summary that shows how many calls there were. -/
def Snapshot.calls : Snapshot :=
  unlabelled .summary ⟨"calls", none, none, by decide⟩ (.summary (some (.ofNat 3)) .null .empty [])
    (fun _ => rfl) rfl

/-- A gauge with the name of the counts of a summary shadows it. -/
example : (Snapshot.level "calls_count" none 4 (by decide)).Shadows Snapshot.calls := by
  decide +kernel

namespace Collection

/-- The number of calls, and the largest number of calls at a time. -/
def load : Collection where
  snapshots := [Snapshot.calls, Snapshot.level "calls_max" none 2 (by decide)]
  increasing := by decide

theorem load_apart :
    (∀ s ∈ load.snapshots, ∀ p ∈ s.points, p.Convertible) ∧
      ∃ families, load.families = .ok families ∧ families.Pairwise Family.ApartFrom := by
  have hconvertible : ∀ s ∈ load.snapshots, ∀ p ∈ s.points, p.Convertible := by decide +kernel
  obtain ⟨families, hfamilies, hapart⟩ := pairwise_families_iff hconvertible
  refine ⟨hconvertible, families, hfamilies, hapart.2 (List.pairwise_pair.2 ⟨fun _ => ?_, ?_⟩)⟩
  · decide
  · decide +kernel

/-- A time in seconds, and another one with the unit in its name. -/
def timings : Collection where
  snapshots := [Snapshot.level "wait" (some .seconds) 1 (by decide),
    Snapshot.level "wait_seconds" none 2 (by decide)]
  increasing := by decide

/-- **Families of metrics with different names do not always stay apart**: the unit leads to the name of the
other family, and both have a sample without labels. -/
theorem timings_alike :
    (∀ s ∈ timings.snapshots, ∀ p ∈ s.points, p.Convertible) ∧
      ∃ f g, timings.families = .ok [f, g] ∧ f.name = g.name ∧
        ¬∀ a ∈ f.samples, ∀ b ∈ g.samples, a.series.same b.series = false := by
  have hconvertible : ∀ s ∈ timings.snapshots, ∀ p ∈ s.points, p.Convertible := by decide +kernel
  obtain ⟨f, hf⟩ := Family.exists_ofSnapshot_iff.2 (hconvertible _ (.head _))
  obtain ⟨g, hg⟩ := Family.exists_ofSnapshot_iff.2 (hconvertible _ (.tail _ (.head _)))
  refine ⟨hconvertible, f, g, families_eq_ok_iff.2 (.cons hf (.cons hg .nil)), ?_, ?_⟩
  · rw [Family.name_of_ofSnapshot hf, Family.name_of_ofSnapshot hg]
    decide
  · rw [Family.forall_samples_iff hf hg]
    decide +kernel

end Collection

end Telemetry
