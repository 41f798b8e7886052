import Telemetry.Proofs.Collection.Built
import Telemetry.Proofs.Exporter.Serving
import Telemetry.Proofs.Point.Relabelled
import Telemetry.Proofs.Snapshot.Relabelling

/-!
# Relabelled collections and the scrape exporter

When labels are added to all points of a snapshot, points with different labels may come to have the same ones: exactly
if their label sets differ at most in the added labels. A collection without such points that the scrape exporter
accepts is still accepted when labels are added to it. This holds as well where points with the same labels have escaped
the check: what stands between them has labels that are exposed alike, and stays there.

## Main definitions

* `Parted`: lists in which elements with the same mark have one with another mark between them

## Main results

* `parted_iff_chained`: in an ordered list, elements with the same mark are parted if neighbours have different marks
* `Snapshot.pairwise_labels_withLabels_iff`: when the points of a relabelled snapshot have different labels
* `Snapshot.duplicateLabels_withLabels_eq_nil`: when the check still finds nothing in a relabelled snapshot
* `ScrapeExporter.exists_accept_iff_of_snapshots`: which collections are accepted, snapshot by snapshot
* `ScrapeExporter.accepts_relabelled`: when labels of the settings keep points apart, and collections accepted
-/

namespace Telemetry

/-! ## Marked lists -/

section Parted

variable {α β : Type} {cmp : α → α → Ordering} {mark : α → β} {xs ys : List α}

/-- **Elements with the same mark are parted**: there is one with another mark between them. -/
def Parted (cmp : α → α → Ordering) (mark : α → β) (xs : List α) : Prop :=
  xs.Nodup ∧ ∀ a ∈ xs, ∀ b ∈ xs, a ≠ b → mark a = mark b → (cmp a b).isLE = true →
    ∃ c ∈ xs, mark c ≠ mark a ∧ (cmp a c).isLE = true ∧ (cmp c b).isLE = true

variable [Std.TransCmp cmp] (hties : ∀ a b, cmp a b = .eq → a = b)

include hties

theorem eq_of_isLE_of_isLE {a b : α} (hab : (cmp a b).isLE = true) (hba : (cmp b a).isLE = true) : a = b :=
  hties a b (Std.OrientedCmp.isLE_antisymm hab hba)

theorem parted_of_chained (hordered : xs.Pairwise fun a b => (cmp a b).isLE = true)
    (h : Chained (· ≠ ·) (xs.map mark)) : Parted cmp mark xs := by
  -- Induction on the list: only its first element is new, and what follows it has another mark.
  induction xs with
  | nil => exact ⟨.nil, fun a ha => absurd ha List.not_mem_nil⟩
  | cons first rest ih =>
    obtain ⟨hfirst, hrest⟩ := List.pairwise_cons.1 hordered
    obtain ⟨hnodup, hparted⟩ := ih hrest h.tail
    have hnext (b : α) (hb : b ∈ rest) :
        ∃ next ∈ rest, mark next ≠ mark first ∧ (cmp first next).isLE = true ∧ (cmp next b).isLE = true := by
      cases rest with
      | nil => cases hb
      | cons next rest =>
        refine ⟨next, List.mem_cons_self, Ne.symm h.1, hfirst next List.mem_cons_self, ?_⟩
        rcases List.mem_cons.1 hb with rfl | hb
        · exact Std.ReflCmp.isLE_rfl
        · exact (List.pairwise_cons.1 hrest).1 b hb
    have hnew : first ∉ rest := by
      intro hmem
      obtain ⟨next, -, hmark, hle, hge⟩ := hnext first hmem
      exact hmark (congrArg mark (eq_of_isLE_of_isLE hties hge hle))
    refine ⟨List.nodup_cons.2 ⟨hnew, hnodup⟩, fun a ha b hb hne hmark hle => ?_⟩
    rcases List.mem_cons.1 ha with rfl | harest <;> rcases List.mem_cons.1 hb with rfl | hbrest
    · exact absurd rfl hne
    · obtain ⟨next, hnextmem, hnextmark, hbetween⟩ := hnext b hbrest
      exact ⟨next, List.mem_cons_of_mem _ hnextmem, hnextmark, hbetween⟩
    · exact absurd (eq_of_isLE_of_isLE hties hle (hfirst a harest)) hne
    · obtain ⟨c, hc, hbetween⟩ := hparted a harest b hbrest hne hmark hle
      exact ⟨c, List.mem_cons_of_mem _ hc, hbetween⟩

theorem chained_of_parted (hordered : xs.Pairwise fun a b => (cmp a b).isLE = true) (h : Parted cmp mark xs) :
    Chained (· ≠ ·) (xs.map mark) := by
  -- Induction on the list: nothing stands between its first two elements, and the first stands between no others.
  induction xs with
  | nil => exact chained_nil
  | cons first rest ih =>
    obtain ⟨hfirst, hrest⟩ := List.pairwise_cons.1 hordered
    obtain ⟨hnodup, hparted⟩ := h
    obtain ⟨hnew, hnodup⟩ := List.nodup_cons.1 hnodup
    have htail : Parted cmp mark rest := by
      refine ⟨hnodup, fun a ha b hb hne hmark hle => ?_⟩
      obtain ⟨c, hc, hcmark, hac, hcb⟩ :=
        hparted a (List.mem_cons_of_mem _ ha) b (List.mem_cons_of_mem _ hb) hne hmark hle
      rcases List.mem_cons.1 hc with rfl | hc
      · rw [eq_of_isLE_of_isLE hties hac (hfirst a ha)] at ha
        exact absurd ha hnew
      · exact ⟨c, hc, hcmark, hac, hcb⟩
    cases rest with
    | nil => exact chained_singleton _
    | cons next rest =>
      refine ⟨fun hmark => ?_, ih hrest htail⟩
      have hne : first ≠ next := fun heq => hnew (heq ▸ List.mem_cons_self)
      obtain ⟨c, hc, hcmark, -, hcnext⟩ := hparted first List.mem_cons_self next (by simp) hne hmark
        (hfirst next List.mem_cons_self)
      rcases List.mem_cons.1 hc with rfl | hc
      · exact hcmark rfl
      · rcases List.mem_cons.1 hc with rfl | hc
        · exact hcmark hmark.symm
        · rw [eq_of_isLE_of_isLE hties hcnext ((List.pairwise_cons.1 hrest).1 c hc)] at hc
          exact absurd hc (List.nodup_cons.1 hnodup).1

/-- **In an ordered list, elements with the same mark are parted** exactly if neighbours have different marks. -/
theorem parted_iff_chained (hordered : xs.Pairwise fun a b => (cmp a b).isLE = true) :
    Parted cmp mark xs ↔ Chained (· ≠ ·) (xs.map mark) :=
  ⟨chained_of_parted hties hordered, parted_of_chained hties hordered⟩

end Parted

theorem Parted.perm {α β : Type} {cmp : α → α → Ordering} {mark : α → β} {xs ys : List α}
    (h : Parted cmp mark xs) (hperm : xs.Perm ys) : Parted cmp mark ys := by
  refine ⟨hperm.nodup_iff.1 h.1, ?_⟩
  simp only [← hperm.mem_iff]
  exact h.2

/-! ## Snapshots -/

namespace Snapshot

open Labels (SameBeyond)

variable {s t : Snapshot} {extra : Labels}

/-- **When the points of a relabelled snapshot have different labels**: exactly if no two label sets differ at most in
the added labels. -/
theorem pairwise_labels_withLabels_iff (h : s.withLabels (.labels extra) = .ok t) :
    (t.points.Pairwise fun p q => p.labels ≠ q.labels) ↔
      s.points.Pairwise fun p q => ¬SameBeyond extra p.labels q.labels := by
  obtain ⟨-, -, points, hpoints, hperm⟩ := of_withLabels_eq_ok h
  rw [hperm.pairwise_iff fun h => Ne.symm h]
  refine (pairwise_iff_of_forall₂ hpoints fun {p q p' q'} hp hq => ?_).symm
  obtain ⟨u, hu, rfl⟩ := hp
  obtain ⟨v, hv, rfl⟩ := hq
  exact not_congr (Labels.merge_eq_merge_iff hu hv).symm

/-- The check finds nothing if points with the same labels are parted. -/
theorem Timed.duplicateLabels_eq_nil_iff (hs : s.Timed) :
    s.duplicateLabels = [] ↔ Parted DataPoint.order (·.labels) s.points := by
  rw [Snapshot.duplicateLabels_eq_nil_iff,
    parted_iff_chained (fun _ _ => DataPoint.eq_of_order_eq) (s.pairwise_order hs)]

/-- **Label sets that differ do so beyond the added labels.** -/
def DiffersBeyond (extra : Labels) (s : Snapshot) : Prop :=
  ∀ p ∈ s.points, ∀ q ∈ s.points, SameBeyond extra p.labels q.labels → p.labels = q.labels

/-- Where all labels differ beyond the added ones, those that differ do. -/
theorem differsBeyond_of_pairwise (h : s.points.Pairwise fun p q => ¬SameBeyond extra p.labels q.labels) :
    s.DiffersBeyond extra := by
  refine List.Pairwise.forall_of_forall_of_flip (fun _ _ _ => rfl) ?_ ?_
  · exact h.imp fun hne hsame => absurd hsame hne
  · exact h.imp fun hne hsame => absurd (fun x hx => (hsame x hx).symm) hne

section DiffersBeyond

variable {p q : DataPoint} {u v : Labels} (hbeyond : s.DiffersBeyond extra) (hp : p ∈ s.points) (hq : q ∈ s.points)
  (hu : p.labels.merge extra = .ok u) (hv : q.labels.merge extra = .ok v)

include hbeyond hp hq hu hv

/-- Points with the same labels after relabelling had the same before. -/
theorem labels_eq_of_union (h : u = v) : p.labels = q.labels :=
  hbeyond p hp q hq ((Labels.merge_eq_merge_iff hu hv).1 h)

/-- Points that are equal after relabelling were so before. -/
theorem relabel_eq_relabel_iff : p.relabel u = q.relabel v ↔ p = q := by
  constructor
  · intro h
    have hunion : u = v := congrArg DataPoint.labels h
    calc
      p = (p.relabel u).relabel p.labels := by rw [p.relabel_relabel, p.relabel_labels]
      _ = (q.relabel v).relabel q.labels := by rw [h, labels_eq_of_union hbeyond hp hq hu hv hunion]
      _ = q := by rw [q.relabel_relabel, q.relabel_labels]
  · rintro rfl
    rw [Except.ok.inj (hu.symm.trans hv)]

end DiffersBeyond

/-- **The check still finds nothing in a relabelled snapshot** if label sets that differ do so beyond the added
labels. -/
theorem duplicateLabels_withLabels_eq_nil (hs : s.Timed) (h : s.withLabels (.labels extra) = .ok t)
    (hbeyond : s.DiffersBeyond extra) (hnone : s.duplicateLabels = []) : t.duplicateLabels = [] := by
  obtain ⟨-, -, points, hpoints, hperm⟩ := of_withLabels_eq_ok h
  rw [(timed_of_withLabels hs h).duplicateLabels_eq_nil_iff]
  obtain ⟨hnodup, hparted⟩ := hs.duplicateLabels_eq_nil_iff.1 hnone
  refine Parted.perm ⟨?_, fun p' hp' q' hq' hne hunion hle => ?_⟩ hperm.symm
  · have hmembers := (List.forall₂_and_left _ _).2 ⟨fun p (hp : p ∈ s.points) => hp, hpoints⟩
    refine (pairwise_iff_of_forall₂ hmembers fun {p q p' q'} hp hq => ?_).1 hnodup
    obtain ⟨hp, u, hu, rfl⟩ := hp
    obtain ⟨hq, v, hv, rfl⟩ := hq
    exact not_congr (relabel_eq_relabel_iff hbeyond hp hq hu hv).symm
  · obtain ⟨p, hp, u, hu, rfl⟩ := exists_of_mem_right hpoints hp'
    obtain ⟨q, hq, v, hv, rfl⟩ := exists_of_mem_right hpoints hq'
    have hclass {p q : DataPoint} (hp : p ∈ s.points) (hq : q ∈ s.points) : p.pointClass = q.pointClass :=
      (s.classed p hp).trans (s.classed q hq).symm
    have hlabels := labels_eq_of_union hbeyond hp hq hu hv hunion
    rw [DataPoint.order_relabel (hclass hp hq) (congrArg Labels.key hlabels) hu hv] at hle
    obtain ⟨r, hr, hmark, hpr, hrq⟩ := hparted p hp q hq
      (mt (relabel_eq_relabel_iff hbeyond hp hq hu hv).2 hne) hlabels hle
    have hkey := DataPoint.key_eq_of_isLE_order hlabels hpr hrq
    obtain ⟨-, hr', w, hw, rfl⟩ := exists_of_mem_left hpoints hr
    refine ⟨r.relabel w, hr', mt (labels_eq_of_union hbeyond hr hp hw hu) hmark, ?_, ?_⟩
    · rwa [DataPoint.order_relabel (hclass hp hr) hkey hu hw]
    · rwa [DataPoint.order_relabel (hclass hr hq) (hkey.symm.trans (congrArg Labels.key hlabels)) hw hv]

end Snapshot

/-! ## Labels of the settings -/

namespace PipelineSettings

variable {cfg : PipelineSettings} {extra : Labels} {c d : Collection} {t : Snapshot}

/-- The labels of the settings are added to snapshots as the label set that they stand for. -/
theorem relabelSnapshot_eq (hextra : (LabelArgument.datum (labelsDatum cfg.constantLabels)).resolve = .ok extra)
    (s : Snapshot) : cfg.relabelSnapshot s = s.withLabels (.labels extra) := by
  unfold relabelSnapshot
  split
  · next hempty =>
    rw [List.isEmpty_iff.1 hempty] at hextra
    cases hextra
    exact s.withLabels_empty.symm
  · rw [Snapshot.withLabels, hextra]
    rfl

/-- A relabelled collection has the relabelled snapshots. -/
theorem mem_of_relabel (hextra : (LabelArgument.datum (labelsDatum cfg.constantLabels)).resolve = .ok extra)
    (h : cfg.relabel c = .ok d) : t ∈ d.snapshots ↔ ∃ s ∈ c.snapshots, s.withLabels (.labels extra) = .ok t := by
  rw [relabel_eq] at h
  simp only [Collection.mem_of_changed h, relabelSnapshot_eq hextra]

end PipelineSettings

/-! ## Acceptance -/

namespace ScrapeExporter

variable {e : ScrapeExporter} {c : Collection}

/-- **Which collections are accepted, snapshot by snapshot**: those whose names can have the text in front of them, and
in whose snapshots the check finds nothing. -/
theorem exists_accept_iff_of_snapshots :
    (∃ e', e.accept c = .ok e') ↔
      (e.lead ≠ "" → ∀ s ∈ c.snapshots, ∃ metadata, s.metadata.withNamePrefix e.lead = .ok metadata) ∧
        ∀ s ∈ c.snapshots, s.duplicateLabels = [] := by
  rw [exists_accept_iff]
  simp only [← Snapshot.exists_withNamePrefix_iff]
  refine and_congr_right fun hnames => ?_
  obtain ⟨d, hd⟩ := exists_renamed_iff.2 hnames
  -- The check looks at the points alone, and renaming leaves them as they are.
  have hpoints := forall_points_renamed_iff (P := fun points => Snapshot.repeated none (points.map (·.labels)) = []) hd
  constructor
  · intro h
    exact hpoints.1 (h d hd)
  · intro h d' hd'
    cases hd.symm.trans hd'
    exact hpoints.2 h

/-- A collection is refused if a metric of it repeats labels. -/
theorem accept_eq_error_of_duplicate {d : Collection} {cause : SnapshotError} (hd : renamed e.lead c = .ok d)
    (hcause : duplicate? d.snapshots = some cause) : e.accept c = .error (.snapshot cause) := by
  rw [accept, hd]
  simp only [bind, Except.bind, hcause]

open PipelineSettings (labelsDatum) in
/-- **When labels keep points apart, and collections accepted.** The points of a relabelled snapshot have different
labels exactly if no two label sets differ at most in the added labels. So a collection that the exporter accepts is
accepted with the labels of the settings as well, unless labels of one metric that differ do so in these labels alone. -/
theorem accepts_relabelled (extra : Labels) :
    (∀ s t : Snapshot, s.withLabels (.labels extra) = .ok t →
      ((t.points.Pairwise fun p q => p.labels ≠ q.labels) ↔
        s.points.Pairwise fun p q => ¬Labels.SameBeyond extra p.labels q.labels)) ∧
      ∀ (cfg : PipelineSettings) (e e' : ScrapeExporter) (c d : Collection),
        (LabelArgument.datum (labelsDatum cfg.constantLabels)).resolve = .ok extra → c.Timed →
        e.accept c = .ok e' → cfg.relabel c = .ok d → (∀ s ∈ c.snapshots, s.DiffersBeyond extra) →
        ∃ e', e.accept d = .ok e' := by
  refine ⟨fun s t h => Snapshot.pairwise_labels_withLabels_iff h, fun cfg e e' c d hextra hc haccepted h hbeyond => ?_⟩
  obtain ⟨hnames, hnone⟩ := exists_accept_iff_of_snapshots.1 ⟨e', haccepted⟩
  refine exists_accept_iff_of_snapshots.2 ⟨fun hlead t ht => ?_, fun t ht => ?_⟩
  · obtain ⟨s, hs, hst⟩ := (PipelineSettings.mem_of_relabel hextra h).1 ht
    rw [(Snapshot.of_withLabels_eq_ok hst).1]
    exact hnames hlead s hs
  · obtain ⟨s, hs, hst⟩ := (PipelineSettings.mem_of_relabel hextra h).1 ht
    exact Snapshot.duplicateLabels_withLabels_eq_nil (hc s hs) hst (hbeyond s hs) (hnone s hs)

end ScrapeExporter

/-! ### Labels that points have already -/

/-- A reading of the clock without labels, and one in an environment. -/
def Snapshot.oneInProd : Snapshot :=
  clock [.ofParts .empty .zero (.ofNat 1) (.gauge (.whole 1) none),
    .ofParts prod .zero (.ofNat 2) (.gauge (.whole 2) none)] (by decide) ⟨by decide +kernel, trivial⟩

def Collection.oneInProd : Collection where
  snapshots := [.oneInProd]
  increasing := List.pairwise_singleton _ _

def PipelineSettings.adding (name value : String) : PipelineSettings :=
  ⟨none, [(name, value)]⟩

namespace ScrapeExporter

/-- One label stands for the label set that has it. -/
theorem resolve_adding {name value : String} (legal : LabelName.problem? name = none) :
    (LabelArgument.datum (PipelineSettings.labelsDatum (PipelineSettings.adding name value).constantLabels)).resolve =
      .ok (.single name value legal) := by
  have hlabel : Labels.checkLabel (.text name) (.text value) = .ok ⟨name, value⟩ := by
    have hname : Naming.problem? .label (.text name) = none := legal
    simp only [Labels.checkLabel, hname]
  show (Labels.checkLabels [.text name] [.text value] >>= Labels.ofLabels) = _
  rw [Labels.checkLabels, hlabel]
  exact Labels.ofLabels_labels (.single name value legal)

theorem timed_oneInProd : Collection.oneInProd.Timed := by
  intro s hs
  rw [List.mem_singleton.1 hs]
  decide

theorem accept_oneInProd : (new "").accept .oneInProd = .ok ⟨"", .oneInProd, true⟩ := by
  refine accept_eq_ok_iff.2 ⟨.oneInProd, admitted?_eq_some_iff.2 ⟨rfl, fun s hs => ?_⟩, rfl⟩
  rw [List.mem_singleton.1 hs]
  decide

/-- A collection of one snapshot is relabelled with it. -/
theorem relabel_oneInProd {name value : String} {legal : LabelName.problem? name = none} {t : Snapshot}
    (h : Snapshot.oneInProd.withLabels (.labels (.single name value legal)) = .ok t) :
    (PipelineSettings.adding name value).relabel .oneInProd = .ok ⟨[t], List.pairwise_singleton _ _⟩ := by
  have hall : Collection.changeAll (PipelineSettings.adding name value).relabelSnapshot
      Collection.oneInProd.snapshots = .ok [t] := by
    refine Collection.changeAll_eq_ok_iff.2 (.cons ?_ .nil)
    rw [PipelineSettings.relabelSnapshot_eq (resolve_adding legal), h]
  rw [PipelineSettings.relabel_eq, Collection.changed, hall]
  exact Collection.ofSnapshots_snapshots ⟨[t], List.pairwise_singleton _ _⟩

open Snapshot (oneInProd prod eu)

/-- A region keeps the readings apart, and they are accepted with it. -/
theorem accepts_oneInRegion :
    ∃ t d e, oneInProd.withLabels (.labels eu) = .ok t ∧
      (t.points.Pairwise fun p q => p.labels ≠ q.labels) ∧
      (PipelineSettings.adding "region" "eu").relabel .oneInProd = .ok d ∧ (new "").accept d = .ok e := by
  obtain ⟨hapart, haccepted⟩ := accepts_relabelled eu
  have hcompatible : ∀ p ∈ oneInProd.points, p.labels.Compatible eu := by decide
  obtain ⟨t, ht⟩ := Snapshot.exists_withLabels_iff.2 hcompatible
  have hbeyond : oneInProd.points.Pairwise fun p q => ¬Labels.SameBeyond eu p.labels q.labels := by
    refine List.pairwise_pair.2 fun hsame => ?_
    have henv := (hsame ⟨"env", "prod"⟩ (by decide)).2 (List.mem_singleton_self _)
    cases henv
  have hdiffers : ∀ s ∈ Collection.oneInProd.snapshots, s.DiffersBeyond eu := by
    intro s hs
    rw [List.mem_singleton.1 hs]
    exact Snapshot.differsBeyond_of_pairwise hbeyond
  obtain ⟨e, he⟩ := haccepted (.adding "region" "eu") (new "") _ .oneInProd _ (resolve_adding (by decide))
    timed_oneInProd accept_oneInProd (relabel_oneInProd ht) hdiffers
  exact ⟨t, _, e, ht, (hapart _ t ht).2 hbeyond, relabel_oneInProd ht, he⟩

/-- **Labels that some points have already do not keep points apart**: in the environment of one reading, both have the
same labels, and what the exporter accepted before is refused. -/
theorem refuses_allInProd :
    oneInProd.Timed ∧ (oneInProd.points.Pairwise fun p q => p.labels ≠ q.labels) ∧
      (∃ e, (new "").accept .oneInProd = .ok e) ∧
      ∃ t d, oneInProd.withLabels (.labels prod) = .ok t ∧
        (¬t.points.Pairwise fun p q => p.labels ≠ q.labels) ∧
        (PipelineSettings.adding "env" "prod").relabel .oneInProd = .ok d ∧
        (new "").accept d = .error (.snapshot (.duplicateSeries "clock" prod.shown)) := by
  have hcompatible : ∀ p ∈ oneInProd.points, p.labels.Compatible prod := by decide
  obtain ⟨t, ht⟩ := Snapshot.exists_withLabels_iff.2 hcompatible
  obtain ⟨hmetadata, -, points, hpoints, hperm⟩ := Snapshot.of_withLabels_eq_ok ht
  have hsubset : ∀ p ∈ oneInProd.points, p.labels.labels ⊆ prod.labels := by decide
  have hlabels : t.points.map (·.labels) = List.replicate 2 prod := by
    refine List.eq_replicate_iff.2 ⟨?_, fun l hl => ?_⟩
    · rw [List.length_map, hperm.length_eq, ← hpoints.length_eq]
      rfl
    · obtain ⟨q, hq, rfl⟩ := List.mem_map.1 hl
      obtain ⟨p, hp, union, hunion, rfl⟩ := exists_of_mem_right hpoints (hperm.mem_iff.1 hq)
      rw [Labels.merge_of_subset (hsubset p hp)] at hunion
      exact (Except.ok.inj hunion).symm
  have hduplicate : t.duplicateLabels = [prod] := by
    rw [Snapshot.duplicateLabels, hlabels]
    decide
  have hname : t.exposedName = "clock" := by
    show t.metadata.exposedName = _
    rw [hmetadata]
    decide
  refine ⟨by decide, by decide, ⟨_, accept_oneInProd⟩, t, _, ht, fun hapart => ?_, relabel_oneInProd ht, ?_⟩
  · rw [← List.pairwise_map (f := fun p : DataPoint => p.labels) (R := (· ≠ ·)), hlabels] at hapart
    exact List.rel_of_pairwise_cons hapart List.mem_cons_self rfl
  · have hrefused : duplicate? [t] = some (.duplicateSeries "clock" prod.shown) := by
      simp [duplicate?, hduplicate, hname]
    exact accept_eq_error_of_duplicate rfl hrefused

end ScrapeExporter

end Telemetry
