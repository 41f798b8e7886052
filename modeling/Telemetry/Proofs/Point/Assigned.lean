import Mathlib.Data.List.Induction
import Mathlib.Data.List.Nodup
import Telemetry.Point
import Telemetry.Proofs.Steps

/-!
# Fields that are assigned

Fields are assigned one after the other, and of those with one name the last one counts. Where each name stands for
one field, what is made of the fields does not depend on their order; and the labels among them have no part in
whether a point is made.

## Main definitions

* `Field.latest`: the last assignment of each name
* `Field.Alike`: lists of fields in which the same is found under each name

## Main results

* `Field.perm_insertAll`: assignments one after the other leave the last one of each name
* `DataPoint.make_eq_of_perm`: the order of fields does not matter
* `DataPoint.bind_make_labels_eq_iff`: points of the same fields but for the labels
-/

namespace Telemetry

namespace Field

variable {fields other : List Field}

/-! ## The last assignments -/

/-- **The last assignment of each name.** -/
def latest : List Field → List Field
  | [] => []
  | f :: fields => if fields.any fun g => g.name == f.name then latest fields else f :: latest fields

theorem latest_sublist (fields : List Field) : (latest fields).Sublist fields := by
  induction fields with
  | nil => exact List.Sublist.slnil
  | cons f fields ih =>
    unfold latest
    split
    · exact ih.cons f
    · exact ih.cons_cons f

/-- No name is assigned twice among the last assignments. -/
theorem nodup_names_latest (fields : List Field) : ((latest fields).map Field.name).Nodup := by
  induction fields with
  | nil => exact List.nodup_nil
  | cons f fields ih =>
    unfold latest
    split
    · exact ih
    · next hnone =>
      rw [List.map_cons, List.nodup_cons]
      refine ⟨fun hmem => hnone ?_, ih⟩
      obtain ⟨g, hg, hname⟩ := List.mem_map.1 hmem
      exact List.any_eq_true.2 ⟨g, (latest_sublist fields).mem hg, beq_iff_eq.2 hname⟩

/-- One more assignment takes the place of those of its name. -/
theorem latest_concat (fields : List Field) (g : Field) :
    latest (fields ++ [g]) = (latest fields).filter (fun f => f.name != g.name) ++ [g] := by
  induction fields with
  | nil => rfl
  | cons f fields ih =>
    have hany : (fields ++ [g]).any (fun h => h.name == f.name) =
        (fields.any (fun h => h.name == f.name) || g.name == f.name) := by
      simp
    rw [List.cons_append, latest, latest, hany, ih]
    by_cases hlater : fields.any (fun h => h.name == f.name) = true
    · rw [hlater, Bool.true_or, if_pos rfl, if_pos rfl]
    · rw [Bool.eq_false_iff.2 hlater, Bool.false_or, if_neg Bool.false_ne_true]
      by_cases hname : g.name = f.name
      · rw [if_pos (beq_iff_eq.2 hname), List.filter_cons_of_neg (by simp [hname])]
      · rw [if_neg (by simpa using hname), List.filter_cons_of_pos (by simpa using Ne.symm hname),
          List.cons_append]

/-- The last assignments of some names are the last ones among those of these names. -/
theorem latest_filter (p : String → Bool) (fields : List Field) :
    latest (fields.filter fun f => p f.name) = (latest fields).filter fun f => p f.name := by
  induction fields with
  | nil => rfl
  | cons f fields ih =>
    by_cases hkept : p f.name = true
    · have hany : (fields.filter fun g => p g.name).any (fun g => g.name == f.name) =
          fields.any fun g => g.name == f.name := by
        rw [List.any_filter]
        congr 1
        funext g
        by_cases hname : g.name = f.name
        · rw [hname, hkept, Bool.true_and]
        · rw [beq_eq_false_iff_ne.2 hname, Bool.and_false]
      rw [List.filter_cons, if_pos hkept, latest, latest, hany, ih]
      split
      · rfl
      · rw [List.filter_cons, if_pos hkept]
    · rw [List.filter_cons, if_neg hkept, latest, ih]
      split
      · rfl
      · rw [List.filter_cons, if_neg hkept]

/-! ## Assignments -/

/-- Where no field has the name, nothing is replaced. -/
theorem map_replace_of_forall_ne {g : Field} (h : ∀ f ∈ fields, f.name ≠ g.name) :
    fields.map (fun f => if f.name == g.name then g else f) = fields := by
  conv_rhs => rw [← List.map_id fields]
  refine List.map_congr_left fun f hf => ?_
  rw [if_neg (by simpa using h f hf)]
  rfl

/-- **An assignment puts a field in the place of the one with its name**, but for the order. -/
theorem perm_insert (hnames : (fields.map Field.name).Nodup) (g : Field) :
    (Field.insert fields g).Perm (g :: fields.filter fun f => f.name != g.name) := by
  unfold Field.insert
  split
  · next hany =>
    obtain ⟨f, hf, hname⟩ := List.any_eq_true.1 hany
    obtain ⟨front, rest, rfl⟩ := List.append_of_mem hf
    have hname : f.name = g.name := beq_iff_eq.1 hname
    rw [List.map_append, List.map_cons, List.nodup_middle, List.nodup_cons, hname, ← List.map_append] at hnames
    have hothers : ∀ h ∈ front ++ rest, h.name ≠ g.name :=
      fun h hh heq => hnames.1 (List.mem_map.2 ⟨h, hh, heq⟩)
    have hfront := fun h hh => hothers h (List.mem_append_left rest hh)
    have hrest := fun h hh => hothers h (List.mem_append_right front hh)
    rw [List.map_append, List.map_cons, map_replace_of_forall_ne hfront, map_replace_of_forall_ne hrest,
      if_pos (beq_iff_eq.2 hname), List.filter_append, List.filter_cons_of_neg (by simp [hname]),
      ← List.filter_append, List.filter_eq_self.2 fun h hh => by simpa using hothers h hh]
    exact List.perm_middle
  · next hnone =>
    have hothers : ∀ f ∈ fields, f.name ≠ g.name := by simpa using hnone
    rw [List.filter_eq_self.2 fun f hf => by simpa using hothers f hf]
    exact List.perm_append_singleton g fields

/-- **Assignments one after the other** leave the last one of each name. -/
theorem perm_insertAll (fields : List Field) : (Field.insertAll [] fields).Perm (latest fields) := by
  induction fields using List.reverseRecOn with
  | nil => exact List.Perm.refl _
  | append_singleton fields g ih =>
    have hnames : ((Field.insertAll [] fields).map Field.name).Nodup :=
      (ih.map _).nodup_iff.2 (nodup_names_latest fields)
    rw [Field.insertAll, List.foldl_append, latest_concat]
    exact ((perm_insert hnames g).trans ((ih.filter _).cons g)).trans (List.perm_append_singleton g _).symm

/-! ## What is found among fields -/

/-- What is found in fields of one name only. -/
def OneName {γ : Type} (find : Field → Option γ) : Prop :=
  ∀ f g a b, find f = some a → find g = some b → f.name = g.name

/-- **Lists of fields in which the same is found under each name.** -/
def Alike (fields other : List Field) : Prop :=
  ∀ ⦃γ : Type⦄ (find : Field → Option γ), OneName find → fields.findSome? find = other.findSome? find

/-- What is found under a name is what is there, if each name stands for one field. -/
theorem findSome?_eq_some_iff {γ : Type} {find : Field → Option γ} (hfind : OneName find)
    (hnames : (fields.map Field.name).Nodup) {a : γ} :
    fields.findSome? find = some a ↔ ∃ f ∈ fields, find f = some a := by
  refine ⟨List.exists_of_findSome?_eq_some, ?_⟩
  rintro ⟨f, hf, ha⟩
  cases hfound : fields.findSome? find with
  | none =>
    rw [List.findSome?_eq_none_iff.1 hfound f hf] at ha
    cases ha
  | some b =>
    obtain ⟨g, hg, hb⟩ := List.exists_of_findSome?_eq_some hfound
    obtain rfl : f = g := List.inj_on_of_nodup_map hnames hf hg (hfind f g a b ha hb)
    exact hb.symm.trans ha

/-- The same is found among the same fields in any order, if each name stands for one of them. -/
theorem alike_of_perm (h : fields.Perm other) (hnames : (fields.map Field.name).Nodup) : Alike fields other := by
  intro γ find hfind
  refine Option.ext fun a => ?_
  rw [findSome?_eq_some_iff hfind hnames, findSome?_eq_some_iff hfind ((h.map _).nodup_iff.1 hnames)]
  simp only [h.mem_iff]

end Field

namespace DataPoint

variable {c : PointClass} {fields other : List Field}

/-- The measurement is the same, if the same is found under each name. -/
theorem ofFields_eq_of_alike (h : Field.Alike fields other) :
    Measurement.ofFields c fields = Measurement.ofFields c other := by
  cases c with
  | base | info => rfl
  | counter | gauge | unknown =>
    unfold Measurement.ofFields Measurement.valueIn Measurement.exemplarIn
    rw [h, h]
    all_goals
      intro f g a b hf hg
      cases f <;> cases hf
      cases g <;> cases hg
      rfl
  | histogram =>
    unfold Measurement.ofFields Measurement.bucketsIn Measurement.sumIn Measurement.exemplarsIn
    rw [h, h, h]
    all_goals
      intro f g a b hf hg
      cases f <;> cases hf
      cases g <;> cases hg
      rfl
  | summary =>
    unfold Measurement.ofFields Measurement.countIn Measurement.sumIn Measurement.quantilesIn
      Measurement.exemplarsIn
    rw [h, h, h, h]
    all_goals
      intro f g a b hf hg
      cases f <;> cases hf
      cases g <;> cases hg
      rfl
  | stateSet =>
    unfold Measurement.ofFields Measurement.statesIn
    rw [h]
    intro f g a b hf hg
    cases f <;> cases hf
    cases g <;> cases hg
    rfl

/-- **The order of fields does not matter**, if each name stands for one of them and the class has them all. -/
theorem make_eq_of_perm (h : fields.Perm other) (hnames : (fields.map Field.name).Nodup)
    (haccepts : ∀ f ∈ fields, c.accepts f.name = true) : make c fields = make c other := by
  have halike := Field.alike_of_perm h hnames
  have hnone : fields.find? (fun f => !c.accepts f.name) = none :=
    List.find?_eq_none.2 fun f hf => by simp [haccepts f hf]
  have hother : other.find? (fun f => !c.accepts f.name) = none :=
    List.find?_eq_none.2 fun f hf => by simp [haccepts f (h.mem_iff.2 hf)]
  unfold make
  rw [hnone, hother]
  unfold labelsIn createdIn scrapeIn
  rw [ofFields_eq_of_alike halike, halike, halike, halike]
  all_goals
    intro f g a b hf hg
    cases f <;> cases hf
    cases g <;> cases hg
    rfl

@[simp] theorem accepts_labels (c : PointClass) : c.accepts "labels" = true := by
  cases c <;> decide

/-- A point of fields with a label set among them: the labels need no check. -/
theorem make_labels_cons (l : Labels) (fields : List Field) :
    make c (.labels (.labels l) :: fields) =
      match fields.find? fun f => !c.accepts f.name with
      | some f => .error (.argument (.unexpectedField c.title f.name))
      | none => do
        let created ← Amount.ofTimestamp .created (createdIn fields)
        let scrape ← Amount.ofTimestamp .scrape (scrapeIn fields)
        let measurement ← Measurement.ofFields c fields
        return ofParts l created scrape measurement := by
  have hfind : (Field.labels (.labels l) :: fields).find? (fun f => !c.accepts f.name) =
      fields.find? fun f => !c.accepts f.name :=
    List.find?_cons_of_neg (by simp [Field.name])
  have hmeasurement : Measurement.ofFields c (.labels (.labels l) :: fields) = Measurement.ofFields c fields := by
    cases c <;> rfl
  unfold make
  rw [hfind, hmeasurement]
  rfl

/-- Whether a point is made does not depend on the labels, which are those of the point. -/
theorem make_labels (l m : Labels) (fields : List Field) :
    make c (.labels (.labels l) :: fields) =
      (make c (.labels (.labels m) :: fields)).map fun p => p.relabel l := by
  rw [make_labels_cons, make_labels_cons]
  cases fields.find? fun f => !c.accepts f.name with
  | some f => rfl
  | none =>
    cases Amount.ofTimestamp .created (createdIn fields) with
    | error e => rfl
    | ok created =>
      cases Amount.ofTimestamp .scrape (scrapeIn fields) with
      | error e => rfl
      | ok scrape => cases Measurement.ofFields c fields <;> rfl

theorem make_info_labels (l : Labels) : make .info [.labels (.labels l)] = .ok (ofParts l .zero .zero .info) := by
  rw [make_labels_cons]
  show (do
    let created ← Amount.ofTimestamp .created (.number Amount.zero.number)
    let scrape ← Amount.ofTimestamp .scrape (.number Amount.zero.number)
    let measurement ← Except.ok Measurement.info
    return ofParts l created scrape measurement) = _
  rw [Amount.ofTimestamp_number, Amount.ofTimestamp_number]
  rfl

theorem labels_of_make {l : Labels} {p : DataPoint} (h : make c (.labels (.labels l) :: fields) = .ok p) :
    p.labels = l := by
  have hl := make_labels (c := c) l l fields
  rw [h] at hl
  exact congrArg DataPoint.labels (Except.ok.inj hl)

/-- Labels that are put among assigned fields take the place of those given there. -/
theorem make_insert_labels (haccepts : ∀ f ∈ fields, c.accepts f.name = true) (l : LabelArgument) :
    make c (Field.insert (Field.insertAll [] fields) (.labels l)) =
      make c (.labels l :: Field.latest (fields.filter fun f => f.name != "labels")) := by
  have hassigned : Field.insert (Field.insertAll [] fields) (.labels l) =
      Field.insertAll [] (fields ++ [.labels l]) := by
    rw [Field.insertAll, Field.insertAll, List.foldl_append]
    rfl
  have hlatest : Field.latest (fields ++ [.labels l]) =
      Field.latest (fields.filter fun f => f.name != "labels") ++ [.labels l] := by
    rw [Field.latest_concat, Field.latest_filter fun name => name != "labels"]
    rfl
  have hperm : (Field.insertAll [] (fields ++ [.labels l])).Perm
      (.labels l :: Field.latest (fields.filter fun f => f.name != "labels")) := by
    refine (Field.perm_insertAll _).trans ?_
    rw [hlatest]
    exact List.perm_append_singleton _ _
  rw [hassigned]
  refine make_eq_of_perm hperm ?_ fun f hf => ?_
  · exact ((Field.perm_insertAll _).map _).nodup_iff.2 (Field.nodup_names_latest _)
  · have hmem := (Field.latest_sublist _).mem ((Field.perm_insertAll _).mem_iff.1 hf)
    rcases List.mem_append.1 hmem with hmem | hmem
    · exact haccepts f hmem
    · rw [List.mem_singleton.1 hmem]
      exact accepts_labels c

/-- **Points of the same fields but for the labels**, which may have to be found first, are the same if the labels are,
and otherwise only if none is made. -/
theorem bind_make_labels_eq_iff {x y : Except Error Labels} :
    (x >>= fun l => make c (.labels (.labels l) :: fields)) = (y >>= fun l => make c (.labels (.labels l) :: fields)) ↔
      x = y ∨ ∃ e, (x >>= fun l => make c (.labels (.labels l) :: fields)) = .error e ∧
        (y >>= fun l => make c (.labels (.labels l) :: fields)) = .error e := by
  constructor
  · intro h
    rw [← h]
    cases hx : x >>= fun l => make c (.labels (.labels l) :: fields) with
    | error e => exact .inr ⟨e, rfl, rfl⟩
    | ok p =>
      obtain ⟨l, rfl, hl⟩ := bind_eq_ok_iff.1 hx
      obtain ⟨m, rfl, hm⟩ := bind_eq_ok_iff.1 (h.symm.trans hx)
      rw [← labels_of_make hl, ← labels_of_make hm]
      exact .inl rfl
  · rintro (rfl | ⟨e, hx, hy⟩)
    · rfl
    · exact hx.trans hy.symm

end DataPoint

end Telemetry
