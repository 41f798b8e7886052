import Telemetry.Proofs.Exporter.Duplicates
import Telemetry.Proofs.Family.Bound
import Telemetry.Proofs.Family.Conversion
import Telemetry.Proofs.Point.Buckets

/-!
# Series of samples

Scrapes tell samples apart by their names and labels. The samples of a point are told apart by endings of
their names, and by an entry that is added to the labels: a bound, a share or the name of a state. The entry
replaces a label of the same name, so points whose labels differ in that label only may be exposed under the
same names and labels.

## Main definitions

* `Series`, `Sample.series`: what scrapes tell samples apart by
* `DataPoint.endings`, `DataPoint.extras`: the endings of names, and the entries that are added to labels
* `DataPoint.series`, `Snapshot.series`: the series of a point, and those of a snapshot

## Main results

* `DataPoint.map_series_samples`, `Family.map_series_samples`: samples are those of series
* `DataPoint.pairwise_series`: the series of a point are different
* `Snapshot.pairwise_samples_iff`: when all samples of a snapshot are told apart
* `Snapshot.relabelled_samples_alike`: they are not always
-/

namespace Telemetry

/-- **What scrapes tell samples apart by.** -/
structure Series where
  name : String
  labels : List (String × String)

/-- Whether two series are the same: labels are compared without their order. -/
def Series.same (a b : Series) : Bool :=
  a.name == b.name && sameEntries a.labels b.labels

def Sample.series (s : Sample) : Series :=
  ⟨s.name, s.labels⟩

/-! ## Dictionaries -/

section Dictionary

variable {entries others : List (String × String)} {key value : String}

/-- Dictionaries have the same entries if the same is seen at every key. -/
theorem sameEntries_iff_lookup (hkeys : (entries.map (·.1)).Nodup) (hothers : (others.map (·.1)).Nodup) :
    sameEntries entries others = true ↔ ∀ key, entries.lookup key = others.lookup key := by
  rw [sameEntries_iff_perm hkeys hothers,
    List.perm_ext_iff_of_nodup (List.Nodup.of_map _ hkeys) (List.Nodup.of_map _ hothers)]
  constructor
  · intro hmem key
    refine Option.ext fun value => ⟨fun h => ?_, fun h => ?_⟩
    · exact lookup_eq_some_of_mem hothers ((hmem _).1 (mem_of_lookup_eq_some h))
    · exact lookup_eq_some_of_mem hkeys ((hmem _).2 (mem_of_lookup_eq_some h))
  · intro hlookup entry
    constructor <;> intro h
    · have hentry := lookup_eq_some_of_mem hkeys h
      rw [hlookup] at hentry
      exact mem_of_lookup_eq_some hentry
    · have hentry := lookup_eq_some_of_mem hothers h
      rw [← hlookup] at hentry
      exact mem_of_lookup_eq_some hentry

/-- Dictionaries with an assignment at one key have the same entries if the same is assigned, and seen at all
other keys. -/
theorem sameEntries_assign_iff (hkeys : (entries.map (·.1)).Nodup) (hothers : (others.map (·.1)).Nodup)
    (key value other : String) :
    sameEntries (assign key value entries) (assign key other others) = true ↔
      value = other ∧ ∀ name, name ≠ key → entries.lookup name = others.lookup name := by
  rw [sameEntries_iff_lookup (nodup_keys_assign hkeys) (nodup_keys_assign hothers)]
  constructor
  · intro h
    refine ⟨?_, fun name hname => ?_⟩
    · have hkey := h key
      rwa [lookup_assign_self, lookup_assign_self, Option.some.injEq] at hkey
    · have hother := h name
      rwa [lookup_assign_of_ne hname, lookup_assign_of_ne hname] at hother
  · rintro ⟨rfl, h⟩ name
    by_cases hname : name = key
    · rw [hname, lookup_assign_self, lookup_assign_self]
    · rw [lookup_assign_of_ne hname, lookup_assign_of_ne hname, h name hname]

end Dictionary

namespace Series

variable {a b : Series}

theorem same_iff : a.same b = true ↔ a.name = b.name ∧ sameEntries a.labels b.labels = true := by
  rw [same, Bool.and_eq_true, beq_iff_eq]

theorem same_eq_false_of_name (h : a.name ≠ b.name) : a.same b = false := by
  rw [← Bool.not_eq_true, same_iff]
  exact fun hsame => h hsame.1

theorem same_symm (ha : (a.labels.map (·.1)).Nodup) (hb : (b.labels.map (·.1)).Nodup)
    (h : a.same b = true) : b.same a = true := by
  rw [same_iff, sameEntries_iff_perm ha hb] at h
  rw [same_iff, sameEntries_iff_perm hb ha]
  exact ⟨h.1.symm, h.2.symm⟩

end Series

/-! ## Lists that are zipped -/

section Zipped

variable {α β γ δ : Type} {f : α → β → γ} {g : γ → δ} {as : List α} {bs : List β}

/-- What is taken from the first elements only is taken from the first list, if the second one is as long. -/
theorem map_zipWith_left {h : α → δ} (hgf : ∀ a b, g (f a b) = h a) (hlength : as.length = bs.length) :
    (as.zipWith f bs).map g = as.map h := by
  induction as generalizing bs with
  | nil => rfl
  | cons a as ih =>
    cases bs with
    | nil => cases hlength
    | cons b bs => rw [List.zipWith_cons_cons, List.map_cons, List.map_cons, hgf, ih (Nat.succ.inj hlength)]

theorem map_zipWith_right {h : β → δ} (hgf : ∀ a b, g (f a b) = h b) (hlength : as.length = bs.length) :
    (as.zipWith f bs).map g = bs.map h := by
  rw [List.zipWith_comm]
  exact map_zipWith_left (fun b a => hgf a b) hlength.symm

theorem exists_of_mem_zipWith {c : γ} (h : c ∈ as.zipWith f bs) : ∃ a b, c = f a b := by
  rw [← List.map_uncurry_zip_eq_zipWith] at h
  obtain ⟨entry, -, rfl⟩ := List.mem_map.1 h
  exact ⟨entry.1, entry.2, rfl⟩

end Zipped

/-! ## Keys in order -/

/-- What is in the order of keys has no repeated images if the images tell the keys. -/
theorem Increasing.nodup_map {α β γ : Type} [Ord β] [Std.ReflOrd β] {f : α → β} {g : α → γ} {xs : List α}
    (h : Increasing (compareOn f) xs) (hkeys : ∀ a ∈ xs, ∀ b ∈ xs, g a = g b → f a = f b) :
    (xs.map g).Nodup := by
  refine List.pairwise_map.2 (h.imp_of_mem fun {a b} ha hb hlt heq => ?_)
  have hself : compare (f a) (f b) = .lt := hlt
  rw [hkeys a ha b hb heq, Std.ReflOrd.compare_self] at hself
  cases hself

/-- Different bounds of buckets have different texts. -/
theorem Buckets.nodup_boundTexts (buckets : Buckets) : (buckets.bounds.map Binary64.boundText).Nodup := by
  rw [bounds, List.map_map]
  exact buckets.increasing.nodup_map fun a _ b _ htext =>
    congrArg Binary64.place? (Binary64.boundText_injective htext)

/-- Quantiles that are shown alike have shares at the same place. -/
theorem Quantile.place?_eq_of_text_eq {q r : Quantile} (h : q.text = r.text) :
    q.share.place? = r.share.place? := by
  obtain ⟨x, hx, hxplace⟩ := Number.exists_toBinary64?_of_isShare q.isShare
  obtain ⟨y, hy, hyplace⟩ := Number.exists_toBinary64?_of_isShare r.isShare
  rw [text, text, hx, hy] at h
  have hxy : x = y := Binary64.boundText_injective h
  rw [← hxplace, ← hyplace, hxy]

/-! ## The series of a point -/

namespace PointClass

/-- The endings that names of samples with the labels as they are may have. -/
def endings : PointClass → List String
  | .base | .stateSet => []
  | .info => ["_info"]
  | .counter => ["_total", "_created"]
  | .gauge | .unknown => [""]
  | .histogram | .summary => ["_count", "_sum", "_created"]

/-- The ending that names of samples with an added entry have. -/
def extraEnding : PointClass → String
  | .histogram => "_bucket"
  | _ => ""

/-- The name of the entry that is added to labels. States are added under the name of their family. -/
def extraKey (family : String) : PointClass → String
  | .histogram => "le"
  | .summary => "quantile"
  | _ => family

theorem nodup_endings (c : PointClass) : c.endings.Nodup := by
  cases c <;> decide

end PointClass

namespace DataPoint

/-- The labels of a point as they are exposed. -/
def exposed (p : DataPoint) : List (String × String) :=
  p.labels.toExposedList

/-- The ending of the sample that says when a point was created, if it says so. -/
def createdEndings (p : DataPoint) : List String :=
  if p.hasCreated then ["_created"] else []

/-- The ending of the sample of a sum that may be missing. -/
def sumEndings : Datum → List String
  | .null => []
  | _ => ["_sum"]

/-- The ending of the sample of a count that may be missing. -/
def countEndings : Option Amount → List String
  | none => []
  | some _ => ["_count"]

/-- **The endings of the names** under which a point is exposed with its labels as they are. -/
def endings (p : DataPoint) : List String :=
  match p.measurement with
  | .base | .stateSet _ => []
  | .info => ["_info"]
  | .counter .. => "_total" :: p.createdEndings
  | .gauge .. | .unknown .. => [""]
  | .histogram _ sum _ => "_count" :: (sumEndings sum ++ p.createdEndings)
  | .summary count sum _ _ => countEndings count ++ (sumEndings sum ++ p.createdEndings)

/-- **The values of the entries that are added** to the labels of a point, each for a sample of its own: the
texts of bounds and shares, and the names of states. -/
def extras (p : DataPoint) : List String :=
  match p.measurement with
  | .histogram buckets _ _ => buckets.bounds.map Binary64.boundText
  | .summary _ _ quantiles _ => quantiles.toList.map Quantile.text
  | .stateSet states => states.toList.map State.name
  | _ => []

def extraSeries (family : String) (p : DataPoint) (value : String) : Series :=
  ⟨family ++ p.pointClass.extraEnding, assign (p.pointClass.extraKey family) value p.exposed⟩

def plainSeries (family : String) (p : DataPoint) (ending : String) : Series :=
  ⟨family ++ ending, p.exposed⟩

/-- **The series of a point** in a family of a name. -/
def series (family : String) (p : DataPoint) : List Series :=
  p.extras.map (p.extraSeries family) ++ p.endings.map (p.plainSeries family)

variable {p q : DataPoint} {family : String} {timestamp : Option Binary64}

/-! ### Samples -/

@[simp] theorem series_sample (name : String) (extra : List (String × String)) (value : Datum) :
    (p.sample timestamp name extra value).series = ⟨name, assignAll p.exposed extra⟩ := rfl

@[simp] theorem assignAll_singleton (entries : List (String × String)) (entry : String × String) :
    assignAll entries [entry] = assign entry.1 entry.2 entries := rfl

theorem map_series_createdSamples {samples : List Sample}
    (h : p.createdSamples timestamp family = .ok samples) :
    samples.map Sample.series = p.createdEndings.map (p.plainSeries family) := by
  unfold createdSamples at h
  obtain ⟨created, hcreated, h⟩ := bind_eq_ok_iff.1 h
  have hpresent : created.isSome = p.hasCreated := Amount.isSome_of_seconds?_eq_ok hcreated
  cases created with
  | none =>
    cases h
    simp [createdEndings, ← hpresent]
  | some t =>
    cases h
    simp [createdEndings, ← hpresent]
    rfl

theorem map_series_sumSamples (sum : Datum) :
    (p.sumSamples timestamp family sum).map Sample.series = (sumEndings sum).map (p.plainSeries family) := by
  cases sum <;> rfl

theorem map_series_countSamples (count : Option Amount) :
    (count.toList.map fun n => p.sample timestamp (family ++ "_count") [] (.number n.number)).map
      Sample.series = (countEndings count).map (p.plainSeries family) := by
  cases count <;> rfl

theorem map_series_bucketSamples {buckets : Buckets} {samples : List Sample}
    (h : p.bucketSamples timestamp family buckets = .ok samples) :
    samples.map Sample.series =
      (buckets.bounds.map fun bound =>
        ⟨family ++ "_bucket", assign "le" bound.boundText p.exposed⟩) ++
      [p.plainSeries family "_count"] := by
  obtain ⟨totals, count, htotals, -, rfl⟩ := bucketSamples_eq_ok_iff.1 h
  have hlength := (Buckets.length_of_cumulative? htotals).symm
  rw [List.map_append]
  exact congrArg (· ++ [p.plainSeries family "_count"]) (map_zipWith_left (fun _ _ => rfl) hlength)

/-- **The samples of a point are those of its series**, in order. -/
theorem map_series_samples {samples : List Sample} (h : p.samples family = .ok samples) :
    samples.map Sample.series = p.series family := by
  unfold DataPoint.samples at h
  obtain ⟨timestamp, -, h⟩ := bind_eq_ok_iff.1 h
  unfold series extraSeries extras endings
  rw [pointClass]
  cases hmeasurement : p.measurement <;> rw [hmeasurement] at h
  case base | info =>
    cases h
    rfl
  case counter value exemplar =>
    obtain ⟨shown, -, h⟩ := bind_eq_ok_iff.1 h
    obtain ⟨created, hcreated, h⟩ := bind_eq_ok_iff.1 h
    cases h
    rw [List.map_cons, map_series_createdSamples hcreated]
    rfl
  case gauge value exemplar | unknown value exemplar =>
    obtain ⟨shown, -, h⟩ := bind_eq_ok_iff.1 h
    cases h
    simp [plainSeries]
    rfl
  case histogram buckets sum exemplars =>
    obtain ⟨counts, hcounts, h⟩ := bind_eq_ok_iff.1 h
    obtain ⟨created, hcreated, h⟩ := bind_eq_ok_iff.1 h
    cases h
    rw [List.map_append, List.map_append, map_series_bucketSamples hcounts, map_series_sumSamples,
      map_series_createdSamples hcreated]
    simp [Measurement.pointClass, PointClass.extraEnding, PointClass.extraKey, Function.comp_def]
  case summary count sum quantiles exemplars =>
    obtain ⟨shares, hshares, h⟩ := bind_eq_ok_iff.1 h
    obtain ⟨created, hcreated, h⟩ := bind_eq_ok_iff.1 h
    rw [quantileSamples_eq] at hshares
    cases hshares
    cases h
    rw [List.map_append, List.map_append, List.map_append, map_series_countSamples, map_series_sumSamples,
      map_series_createdSamples hcreated]
    simp [Measurement.pointClass, PointClass.extraEnding, PointClass.extraKey, Function.comp_def]
  case stateSet states =>
    cases h
    simp [stateSamples, Measurement.pointClass, PointClass.extraEnding, PointClass.extraKey,
      Function.comp_def]

/-! ### Endings -/

theorem createdEndings_sublist : List.Sublist p.createdEndings ["_created"] := by
  unfold createdEndings
  split
  · exact List.Sublist.refl _
  · exact List.nil_sublist _

theorem sumEndings_sublist (sum : Datum) : List.Sublist (sumEndings sum) ["_sum"] := by
  unfold sumEndings
  split
  · exact List.nil_sublist _
  · exact List.Sublist.refl _

theorem countEndings_sublist (count : Option Amount) : List.Sublist (countEndings count) ["_count"] := by
  unfold countEndings
  split
  · exact List.nil_sublist _
  · exact List.Sublist.refl _

/-- **The endings of a point are some of those of its class**, in order. -/
theorem endings_sublist (p : DataPoint) : List.Sublist p.endings p.pointClass.endings := by
  unfold endings pointClass
  cases p.measurement with
  | base | info | gauge | unknown | stateSet => exact List.Sublist.refl _
  | counter => exact createdEndings_sublist.cons_cons _
  | histogram buckets sum => exact ((sumEndings_sublist sum).append createdEndings_sublist).cons_cons _
  | summary count sum =>
    exact (countEndings_sublist count).append ((sumEndings_sublist sum).append createdEndings_sublist)

/-- No sample with the labels as they are has the name of one with an added entry. -/
theorem extraEnding_not_mem_endings (hclass : p.pointClass = q.pointClass) (hextras : p.extras ≠ []) :
    p.pointClass.extraEnding ∉ q.endings := by
  intro hmem
  have hmem := (q.endings_sublist).mem hmem
  rw [← hclass] at hmem
  revert hmem hextras
  unfold extras pointClass
  cases p.measurement <;> simp [Measurement.pointClass, PointClass.extraEnding, PointClass.endings]

/-! ### Added entries -/

/-- **The entries that are added to the labels of a point are different.** -/
theorem nodup_extras (p : DataPoint) : p.extras.Nodup := by
  unfold extras
  cases p.measurement with
  | base | info | counter | gauge | unknown => exact List.nodup_nil
  | histogram buckets sum exemplars => exact buckets.nodup_boundTexts
  | summary count sum quantiles exemplars =>
    exact quantiles.increasing.nodup_map fun a _ b _ htext => Quantile.place?_eq_of_text_eq htext
  | stateSet states => exact states.increasing.nodup_map fun a _ b _ hname => hname

/-! ### Which series are the same -/

/-- The name of the added entry does not tell points of one class apart. -/
theorem extraSeries_same_iff (hclass : p.pointClass = q.pointClass) {value other : String} :
    (p.extraSeries family value).same (q.extraSeries family other) = true ↔
      value = other ∧ ∀ name, name ≠ p.pointClass.extraKey family →
        p.exposed.lookup name = q.exposed.lookup name := by
  rw [extraSeries, extraSeries, ← hclass, Series.same_iff]
  refine (and_iff_right rfl).trans ?_
  exact sameEntries_assign_iff p.labels.nodup_exposed_keys q.labels.nodup_exposed_keys _ _ _

theorem extraSeries_same_plainSeries (hclass : p.pointClass = q.pointClass) {value ending : String}
    (hvalue : value ∈ p.extras) (hending : ending ∈ q.endings) :
    (p.extraSeries family value).same (q.plainSeries family ending) = false := by
  refine Series.same_eq_false_of_name fun hname => ?_
  have hextras : p.extras ≠ [] := List.ne_nil_of_mem hvalue
  have heq : p.pointClass.extraEnding = ending := (String.append_right_inj family).1 hname
  exact extraEnding_not_mem_endings hclass hextras (heq ▸ hending)

theorem plainSeries_same_extraSeries (hclass : p.pointClass = q.pointClass) {value ending : String}
    (hending : ending ∈ p.endings) (hvalue : value ∈ q.extras) :
    (p.plainSeries family ending).same (q.extraSeries family value) = false := by
  refine Series.same_eq_false_of_name fun hname => ?_
  have hextras : q.extras ≠ [] := List.ne_nil_of_mem hvalue
  have heq : ending = q.pointClass.extraEnding := (String.append_right_inj family).1 hname
  exact extraEnding_not_mem_endings hclass.symm hextras (heq ▸ hending)

theorem nodup_keys_of_mem_series {a : Series} (h : a ∈ p.series family) :
    (a.labels.map (·.1)).Nodup := by
  rcases List.mem_append.1 h with h | h
  · obtain ⟨value, -, rfl⟩ := List.mem_map.1 h
    exact nodup_keys_assign p.labels.nodup_exposed_keys
  · obtain ⟨ending, -, rfl⟩ := List.mem_map.1 h
    exact p.labels.nodup_exposed_keys

/-- **The series of a point are different.** -/
theorem pairwise_series (family : String) (p : DataPoint) :
    (p.series family).Pairwise fun a b => a.same b = false := by
  refine List.pairwise_append.2 ⟨?_, ?_, ?_⟩
  · refine List.pairwise_map.2 (p.nodup_extras.imp fun {value other} hne => ?_)
    rw [← Bool.not_eq_true, extraSeries_same_iff rfl]
    exact fun h => hne h.1
  · have hnodup : p.endings.Nodup := p.pointClass.nodup_endings.sublist p.endings_sublist
    refine List.pairwise_map.2 (hnodup.imp fun hne => Series.same_eq_false_of_name fun hname => hne ?_)
    exact (String.append_right_inj family).1 hname
  · intro a ha b hb
    obtain ⟨value, hvalue, rfl⟩ := List.mem_map.1 ha
    obtain ⟨ending, hending, rfl⟩ := List.mem_map.1 hb
    exact extraSeries_same_plainSeries rfl hvalue hending

/-- **When the series of two points of a class are different**, although their labels are exposed differently:
if the labels differ apart from the entry that is added to both. -/
theorem forall_series_iff (family : String) (hclass : p.pointClass = q.pointClass)
    (hexposed : sameEntries p.exposed q.exposed = false) :
    (∀ a ∈ p.series family, ∀ b ∈ q.series family, a.same b = false) ↔
      ∀ value ∈ p.extras, value ∈ q.extras →
        ∃ name, name ≠ p.pointClass.extraKey family ∧ p.exposed.lookup name ≠ q.exposed.lookup name := by
  constructor
  · intro h value hp hq
    have hp := List.mem_append_left (p.endings.map (p.plainSeries family))
      (List.mem_map_of_mem (f := p.extraSeries family) hp)
    have hq := List.mem_append_left (q.endings.map (q.plainSeries family))
      (List.mem_map_of_mem (f := q.extraSeries family) hq)
    have hapart := h _ hp _ hq
    rw [← Bool.not_eq_true, extraSeries_same_iff hclass] at hapart
    by_contra hagree
    refine hapart ⟨rfl, fun name hname => ?_⟩
    by_contra hlookup
    exact hagree ⟨name, hname, hlookup⟩
  · intro h a ha b hb
    rcases List.mem_append.1 ha with ha | ha <;> rcases List.mem_append.1 hb with hb | hb
    · obtain ⟨value, hp, rfl⟩ := List.mem_map.1 ha
      obtain ⟨other, hq, rfl⟩ := List.mem_map.1 hb
      rw [← Bool.not_eq_true, extraSeries_same_iff hclass]
      rintro ⟨rfl, hagree⟩
      obtain ⟨name, hname, hlookup⟩ := h value hp hq
      exact hlookup (hagree name hname)
    · obtain ⟨value, hvalue, rfl⟩ := List.mem_map.1 ha
      obtain ⟨ending, hending, rfl⟩ := List.mem_map.1 hb
      exact extraSeries_same_plainSeries hclass hvalue hending
    · obtain ⟨ending, hending, rfl⟩ := List.mem_map.1 ha
      obtain ⟨value, hvalue, rfl⟩ := List.mem_map.1 hb
      exact plainSeries_same_extraSeries hclass hending hvalue
    · obtain ⟨ending, -, rfl⟩ := List.mem_map.1 ha
      obtain ⟨other, -, rfl⟩ := List.mem_map.1 hb
      simp [Series.same, plainSeries, hexposed]

end DataPoint

/-! ## The samples of a snapshot -/

/-- The samples of points are those of their series, in order. -/
theorem map_series_samplesOf {family : String} {points : List DataPoint} {samples : List Sample}
    (h : samplesOf family points = .ok samples) :
    samples.map Sample.series = points.flatMap (DataPoint.series family) := by
  obtain ⟨hblocks, rfl⟩ := samplesOf_eq_ok_iff.1 h
  rw [List.map_flatMap]
  exact List.flatMap_congr fun p hp => DataPoint.map_series_samples (hblocks p hp)

def Snapshot.series (s : Snapshot) : List Series :=
  s.points.flatMap (DataPoint.series s.metadata.familyName)

/-- **The samples of a family are those of the series of its snapshot**, in order. -/
theorem Family.map_series_samples {s : Snapshot} {f : Family} (hf : Family.ofSnapshot s = .ok f) :
    f.samples.map Sample.series = s.series :=
  map_series_samplesOf (Family.ofSnapshot_eq_ok_iff.1 hf).1

namespace Snapshot

theorem nodup_keys_of_mem_series {s : Snapshot} {a : Series} (h : a ∈ s.series) :
    (a.labels.map (·.1)).Nodup := by
  obtain ⟨p, -, ha⟩ := List.mem_flatMap.1 h
  exact DataPoint.nodup_keys_of_mem_series ha

/-- **When all samples of a snapshot are told apart**, if the labels of its points are exposed differently:
exactly if points that have a bound, a share or a state in common still differ in their labels when this has
been added to them. -/
theorem pairwise_samples_iff {s : Snapshot} (hconvertible : ∀ p ∈ s.points, p.Convertible)
    (hexposed : s.points.Pairwise fun p q => sameEntries p.exposed q.exposed = false) :
    ∃ f, Family.ofSnapshot s = .ok f ∧
      ((f.samples.Pairwise fun a b => a.series.same b.series = false) ↔
        s.points.Pairwise fun p q => ∀ value ∈ p.extras, value ∈ q.extras →
          ∃ name, name ≠ s.kind.pointClass.extraKey s.metadata.familyName ∧
            p.exposed.lookup name ≠ q.exposed.lookup name) := by
  obtain ⟨f, hf⟩ := Family.exists_ofSnapshot_iff.2 hconvertible
  refine ⟨f, hf, ?_⟩
  rw [← List.pairwise_map (f := Sample.series) (R := fun a b => a.same b = false),
    Family.map_series_samples hf, series, List.pairwise_flatMap]
  have hpoints {p q : DataPoint} (hp : p ∈ s.points) (hq : q ∈ s.points) :=
    DataPoint.forall_series_iff (p := p) (q := q) s.metadata.familyName
      ((s.classed p hp).trans (s.classed q hq).symm)
  constructor
  · rintro ⟨-, h⟩
    refine (hexposed.and h).imp_of_mem fun {p q} hp hq hpq => ?_
    rw [← s.classed p hp]
    exact (hpoints hp hq hpq.1).1 hpq.2
  · intro h
    refine ⟨fun p _ => p.pairwise_series _, ?_⟩
    refine (hexposed.and h).imp_of_mem fun {p q} hp hq hpq => ?_
    refine (hpoints hp hq hpq.1).2 ?_
    rw [s.classed p hp]
    exact hpq.2

/-! ### Labels that are replaced and labels that are not -/

def latency (points : List DataPoint) (classed : ∀ p ∈ points, p.pointClass = .histogram)
    (ordered : Chained (Follows DataPoint.precedes) points) : Snapshot where
  kind := .histogram
  metadata := ⟨"latency", none, none, by decide⟩
  points := points
  unitAllowed _ := rfl
  classed := classed
  ordered := ordered

/-- How many requests there were with one label, whatever their latencies. -/
def requests (name value : String) (legal : LabelName.problem? name = none) (count : Nat) : DataPoint :=
  .ofParts (.single name value legal) .zero .zero
    (.histogram ⟨[⟨.infinite false, .ofNat count⟩], by simp [Binary64.isNaN], List.pairwise_singleton _ _, rfl⟩
      .null [])

def perPath : Snapshot :=
  latency [requests "path" "a" (by decide) 1, requests "path" "b" (by decide) 2] (by decide)
    ⟨by decide +kernel, trivial⟩

theorem perPath_samples_apart :
    (∀ p ∈ perPath.points, p.Convertible) ∧
      (perPath.points.Pairwise fun p q => sameEntries p.exposed q.exposed = false) ∧
      ∃ f, Family.ofSnapshot perPath = .ok f ∧
        f.samples.Pairwise fun a b => a.series.same b.series = false := by
  have hconvertible : ∀ p ∈ perPath.points, p.Convertible := by decide +kernel
  have hexposed : perPath.points.Pairwise fun p q => sameEntries p.exposed q.exposed = false := by decide
  obtain ⟨f, hf, hsamples⟩ := pairwise_samples_iff hconvertible hexposed
  refine ⟨hconvertible, hexposed, f, hf, hsamples.2 ?_⟩
  exact List.pairwise_pair.2 fun value _ _ => ⟨"path", by decide, by decide⟩

/-- Requests whose label has the name of the one for bounds. -/
def relabelled : Snapshot :=
  latency [requests "le" "a" (by decide) 1, requests "le" "b" (by decide) 2] (by decide)
    ⟨by decide +kernel, trivial⟩

/-- **Samples of points whose labels are exposed differently are not always told apart**: the bound replaces
both labels. -/
theorem relabelled_samples_alike :
    (∀ p ∈ relabelled.points, p.Convertible) ∧
      (relabelled.points.Pairwise fun p q => sameEntries p.exposed q.exposed = false) ∧
      ∃ f, Family.ofSnapshot relabelled = .ok f ∧
        ¬f.samples.Pairwise fun a b => a.series.same b.series = false := by
  have hconvertible : ∀ p ∈ relabelled.points, p.Convertible := by decide +kernel
  obtain ⟨f, hf⟩ := Family.exists_ofSnapshot_iff.2 hconvertible
  refine ⟨hconvertible, by decide, f, hf, fun hpairwise => ?_⟩
  rw [← List.pairwise_map (f := Sample.series) (R := fun a b => a.same b = false),
    Family.map_series_samples hf] at hpairwise
  revert hpairwise
  decide +kernel

end Snapshot

end Telemetry
