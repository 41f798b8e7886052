import Mathlib.Logic.Basic
import Telemetry.Proofs.Settings.Sections
import Telemetry.Proofs.Steps

/-!
# Loading settings

What is wrong with a document is reported as a wrong value, whatever it is. What the environment overrides is put into
the document before anything is checked, though. An override reaches its entry only if the document is a dictionary, and
the section in it one too or not there at all; where it does not, the failure is of another sort.

Overrides are made one after the other, in sections of different titles and under different keys. What one of them does to
the document does not matter to the others, even if both sections are one dictionary, so it can be said of the document as it
is read which of them fail.

## Main definitions

* `Override`: overrides, with `Override.Applied`: all that one can do
* `Override.Refused`: documents that an override does not reach
* `Environment.overrides`: the overrides of an environment

## Main results

* `Override.applied_apply`: an override does nothing else
* `Override.frame_of_apply`, `Override.refused_iff_of_apply`: what an override leaves to the others
* `Override.applyAll_of_refused`, `Override.exists_applyAll`: when overrides succeed, and how they fail
* `Settings.load_reports_iff`: which documents are reported as wrong values, and how the others are
* `Settings.load_empty_section`: a section without content is not
-/

namespace Telemetry

open Datum (lookup insertEntry)

def Document.IsDictionary (document : Document) : Prop :=
  ∃ entries, document.entries? document.top = some entries

/-- Whether a document has a section under a title that is no dictionary. -/
def Document.SpoilsSection (document : Document) (title : String) : Prop :=
  ∃ part, document.find? document.top title = some part ∧ document.entries? part = none

/-! ## One override -/

/-- **An override**: the title of the section and the key that it is for, and a text, if there is one. -/
structure Override where
  title : String
  key : String
  value : Option String

namespace Override

variable {o other : Override} {os : List Override} {D D' : Document} {e : LoadError}

def apply (o : Override) (document : Document) : Except LoadError Document :=
  Settings.override o.title o.key o.value document

/-- **Whether there is anything to override.** An empty text overrides nothing. -/
def IsSet (o : Override) : Prop :=
  ∃ text, o.value = some text ∧ text ≠ ""

/-- **Documents that an override does not reach**: they are no dictionaries, or their section is none. -/
def Refused (o : Override) (document : Document) : Prop :=
  o.IsSet ∧ (document.IsDictionary → document.SpoilsSection o.title)

/-- A document that is no dictionary is not reached by any override. -/
theorem refused_iff_of_not_isDictionary (h : ¬D.IsDictionary) : o.Refused D ↔ o.IsSet :=
  and_iff_left fun hdictionary => absurd hdictionary h

theorem refused_iff_of_isDictionary (h : D.IsDictionary) : o.Refused D ↔ o.IsSet ∧ D.SpoilsSection o.title :=
  and_congr_right fun _ => forall_prop_of_true h

/-- A section that is not there counts as an empty one. -/
theorem spoilsSection_iff {title : String} : D.SpoilsSection title ↔ D.entries? (D.part D.top title) = none := by
  unfold Document.SpoilsSection Document.part
  cases D.find? D.top title with
  | some part => simp
  | none => simp [Document.entries?, Document.content, Content.entries?]

/-- **All that an override can do.** Without a text it leaves the document. With one, it fails at a document that is no
dictionary and at a section that is none, and puts the text into the section otherwise. -/
inductive Applied (o : Override) (D : Document) : Except LoadError Document → Prop
  | unset : ¬o.IsSet → Applied o D (.ok D)
  | noDocument : o.IsSet → ¬D.IsDictionary →
      Applied o D (.error (.argument (.noAttribute D.value.typeName "setdefault")))
  | noSection (cause : LoadError) : o.IsSet → D.IsDictionary → D.SpoilsSection o.title →
      cause.report.category = .wrongType → Applied o D (.error cause)
  | changed (entries inner : List (Datum × Node)) (text : String) : o.value = some text → text ≠ "" →
      D.entries? D.top = some entries → D.entries? (D.part D.top o.title) = some inner →
      Applied o D (.ok (D.assignSection o.title (insertEntry inner (.text o.key) (.plain (.text text)))))

theorem category_sectionError (d : Datum) : (LoadError.argument (Settings.sectionError d)).report.category = .wrongType := by
  cases d <;> rfl

/-- **An override does nothing else.** -/
theorem applied_apply (o : Override) (D : Document) : o.Applied D (o.apply D) := by
  obtain ⟨title, key, value⟩ := o
  unfold apply Settings.override
  dsimp only
  split
  · exact .unset fun ⟨text, h, _⟩ => by cases h
  · exact .unset fun ⟨text, h, hne⟩ => hne (Option.some.inj h).symm
  · next text hne =>
    have hset : IsSet ⟨title, key, some text⟩ := ⟨text, rfl, hne⟩
    split
    · next hnone =>
      refine .noDocument hset ?_
      rintro ⟨entries, hentries⟩
      rw [hnone] at hentries
      cases hentries
    · next entries hentries =>
      split
      · next hnone =>
        exact .noSection _ hset ⟨entries, hentries⟩ (spoilsSection_iff.2 hnone) (category_sectionError _)
      · next inner hinner => exact .changed entries inner text rfl hne hentries hinner

/-- **How an override fails**: at a document or at a section that it does not reach. -/
theorem of_apply_eq_error (h : o.apply D = .error e) :
    o.Refused D ∧ (D.IsDictionary ∧ e.report.category = .wrongType ∨
      ¬D.IsDictionary ∧ e.report.category = .missingAttribute) := by
  have happlied := o.applied_apply D
  rw [h] at happlied
  cases happlied with
  | noDocument hset hdocument =>
    exact ⟨(refused_iff_of_not_isDictionary hdocument).2 hset, .inr ⟨hdocument, rfl⟩⟩
  | noSection _ hset hdocument hsection hcategory =>
    exact ⟨(refused_iff_of_isDictionary hdocument).2 ⟨hset, hsection⟩, .inl ⟨hdocument, hcategory⟩⟩

/-- An override that succeeds reaches the document. -/
theorem not_refused_of_apply (h : o.apply D = .ok D') : ¬o.Refused D := by
  rintro ⟨hset, hsection⟩
  have happlied := o.applied_apply D
  rw [h] at happlied
  cases happlied with
  | unset hunset => exact hunset hset
  | changed entries inner _ _ _ hentries hinner =>
    rw [spoilsSection_iff.1 (hsection ⟨entries, hentries⟩)] at hinner
    cases hinner

/-- **An override changes nothing but what stands under its title and its key.** -/
theorem frame_of_apply (h : o.apply D = .ok D') : D.Frame [o.title, o.key] D' := by
  have happlied := o.applied_apply D
  rw [h] at happlied
  cases happlied with
  | unset _ => exact .refl D _
  | changed entries inner text _ _ hentries hinner =>
    exact D.frame_assignSection hentries hinner fun other hother => Datum.lookup_insertEntry_of_ne hother _

/-- **What an override leaves to the others**: a document is a dictionary or none as before, and so are its other
sections. -/
theorem refused_iff_of_apply (h : o.apply D = .ok D') (hother : other.title ∉ [o.title, o.key]) :
    (D'.IsDictionary ↔ D.IsDictionary) ∧ (other.Refused D' ↔ other.Refused D) := by
  have hframe := frame_of_apply h
  have hdictionary : D'.IsDictionary ↔ D.IsDictionary := by
    unfold Document.IsDictionary
    rw [← Option.isSome_iff_exists, ← Option.isSome_iff_exists, hframe.top_eq, hframe.isSome_eq]
  have hsection : D'.SpoilsSection other.title ↔ D.SpoilsSection other.title := by
    rw [spoilsSection_iff, spoilsSection_iff, hframe.top_eq, hframe.part_eq D.top hother, ← Option.not_isSome_iff_eq_none,
      ← Option.not_isSome_iff_eq_none, hframe.isSome_eq]
  exact ⟨hdictionary, and_congr_right fun _ => imp_congr hdictionary hsection⟩

/-! ## All overrides -/

/-- **A document with all overrides made**, one after the other. -/
def applyAll (os : List Override) (document : Document) : Except LoadError Document :=
  os.foldlM (fun document o => o.apply document) document

theorem applyAll_cons : applyAll (o :: os) D = (o.apply D >>= applyAll os) :=
  List.foldlM_cons

/-- **Overrides that do not meet**: what one changes is not what the other one looks for. -/
def Apart (o other : Override) : Prop :=
  other.title ∉ [o.title, o.key]

/-- **When overrides succeed**: if all of them reach the document as it was before the first one. -/
theorem exists_applyAll (hapart : os.Pairwise Apart) (h : ∀ o ∈ os, ¬o.Refused D) :
    ∃ D', applyAll os D = .ok D' := by
  induction os generalizing D with
  | nil => exact ⟨D, rfl⟩
  | cons o os ih =>
    obtain ⟨hfirst, hapart⟩ := List.pairwise_cons.1 hapart
    cases happly : o.apply D with
    | error e => exact absurd (of_apply_eq_error happly).1 (h o List.mem_cons_self)
    | ok D' =>
      have hrest : ∀ other ∈ os, ¬other.Refused D' := by
        intro other hmem
        rw [(refused_iff_of_apply happly (hfirst other hmem)).2]
        exact h other (List.mem_cons_of_mem o hmem)
      obtain ⟨D₂, hD₂⟩ := ih hapart hrest
      exact ⟨D₂, by rw [applyAll_cons, happly]; exact hD₂⟩

/-- **How overrides fail** that do not reach the document. -/
theorem applyAll_of_refused (hapart : os.Pairwise Apart) (h : ∃ o ∈ os, o.Refused D) :
    ∃ e, applyAll os D = .error e ∧ (D.IsDictionary ∧ e.report.category = .wrongType ∨
      ¬D.IsDictionary ∧ e.report.category = .missingAttribute) := by
  induction os generalizing D with
  | nil =>
    obtain ⟨o, ho, -⟩ := h
    cases ho
  | cons o os ih =>
    obtain ⟨hfirst, hapart⟩ := List.pairwise_cons.1 hapart
    cases happly : o.apply D with
    | error e => exact ⟨e, by rw [applyAll_cons, happly]; rfl, (of_apply_eq_error happly).2⟩
    | ok D' =>
      obtain ⟨other, hmem, hrefused⟩ := h
      rcases List.mem_cons.1 hmem with rfl | hmem
      · exact absurd hrefused (not_refused_of_apply happly)
      · have hsame := refused_iff_of_apply happly (hfirst other hmem)
        obtain ⟨e, he, hcategory⟩ := ih hapart ⟨other, hmem, hsame.2.2 hrefused⟩
        rw [hsame.1] at hcategory
        exact ⟨e, by rw [applyAll_cons, happly]; exact he, hcategory⟩

end Override

/-- **The overrides of an environment.** -/
def Environment.overrides (environment : Environment) : List Override :=
  [⟨"global", "log_level", environment.logLevel⟩, ⟨"pipeline", "name_prefix", environment.nameLead⟩]

namespace Settings

variable {environment : Environment} {document : Document} {e : LoadError}

/-! ## Documents -/

/-- Settings are loaded from the document with all overrides made. -/
theorem load_eq (environment : Environment) (document : Document) :
    load environment document = (Override.applyAll environment.overrides (effective document) >>= fun document => ofDocument document.value) := by
  simp only [load, Override.applyAll, Environment.overrides, List.foldlM_cons, List.foldlM_nil, Override.apply,
    bind_assoc, pure_bind]

/-- **What is wrong with a document that is read is a wrong value.** -/
theorem category_of_ofDocument_eq_error {d : Datum} (h : ofDocument d = .error e) : e.report.category = .wrongValue := by
  unfold ofDocument at h
  split at h
  · next entries =>
    split at h
    · cases hentries : ofEntries entries with
      | ok s =>
        rw [hentries] at h
        cases h
      | error findings =>
        rw [hentries] at h
        cases h
        rfl
    · cases h
      rfl
  · cases h
    rfl

/-! ## Reports -/

/-- The overrides of an environment do not meet. -/
theorem pairwise_apart_overrides (environment : Environment) : environment.overrides.Pairwise Override.Apart := by
  have hapart : "pipeline" ∉ ["global", "log_level"] := by decide
  exact List.pairwise_pair.2 hapart

/-- **Where every override reaches the document**, settings are loaded from it, or it is reported as a wrong value. -/
theorem load_of_reached (h : ∀ o ∈ environment.overrides, ¬o.Refused (effective document)) :
    (∃ s, load environment document = .ok s) ∨
      ∃ e, load environment document = .error e ∧ e.report.category = .wrongValue := by
  obtain ⟨document', happly⟩ := Override.exists_applyAll (pairwise_apart_overrides environment) h
  have hload : load environment document = ofDocument document'.value := by
    rw [load_eq, happly]
    rfl
  rw [hload]
  cases hread : ofDocument document'.value with
  | ok s => exact .inl ⟨s, rfl⟩
  | error e => exact .inr ⟨e, rfl, category_of_ofDocument_eq_error hread⟩

/-- **Where an override does not reach the document**, that is what is reported. -/
theorem load_of_refused (h : ∃ o ∈ environment.overrides, o.Refused (effective document)) :
    ∃ e, load environment document = .error e ∧
      ((effective document).IsDictionary ∧ e.report.category = .wrongType ∨
        ¬(effective document).IsDictionary ∧ e.report.category = .missingAttribute) := by
  obtain ⟨e, happly, hcategory⟩ := Override.applyAll_of_refused (pairwise_apart_overrides environment) h
  refine ⟨e, ?_, hcategory⟩
  rw [load_eq, happly]
  rfl

/-- A report of another sort than a wrong value is that of an override. -/
theorem refused_of_load_eq_error (h : load environment document = .error e) (hne : e.report.category ≠ .wrongValue) :
    (∃ o ∈ environment.overrides, o.Refused (effective document)) ∧
      ((effective document).IsDictionary ∧ e.report.category = .wrongType ∨
        ¬(effective document).IsDictionary ∧ e.report.category = .missingAttribute) := by
  by_cases hrefused : ∃ o ∈ environment.overrides, o.Refused (effective document)
  · obtain ⟨e', hload, hcategory⟩ := load_of_refused hrefused
    obtain rfl : e = e' := Except.error.inj (h.symm.trans hload)
    exact ⟨hrefused, hcategory⟩
  · have hreached : ∀ o ∈ environment.overrides, ¬o.Refused (effective document) :=
      fun o ho href => hrefused ⟨o, ho, href⟩
    rcases load_of_reached hreached with ⟨s, hload⟩ | ⟨e', hload, hvalue⟩
    · cases h.symm.trans hload
    · obtain rfl : e = e' := Except.error.inj (h.symm.trans hload)
      exact absurd hvalue hne

/-- **Which documents are loaded or reported as wrong values**: those that every override reaches. -/
theorem exists_load_or_wrongValue_iff :
    ((∃ s, load environment document = .ok s) ∨
        ∃ e, load environment document = .error e ∧ e.report.category = .wrongValue) ↔
      ∀ o ∈ environment.overrides, ¬o.Refused (effective document) := by
  refine ⟨fun hload o ho href => ?_, load_of_reached⟩
  obtain ⟨e, he, hcategory⟩ := load_of_refused ⟨o, ho, href⟩
  rw [he] at hload
  rcases hload with ⟨s, hs⟩ | ⟨e', he', hvalue⟩
  · cases hs
  · obtain rfl : e = e' := Except.error.inj he'
    rw [hvalue] at hcategory
    rcases hcategory with ⟨-, hne⟩ | ⟨-, hne⟩ <;> cases hne

/-- **Which documents are reported for a missing attribute**: those that are no dictionaries, if anything is to be
overridden. -/
theorem exists_missingAttribute_iff :
    (∃ e, load environment document = .error e ∧ e.report.category = .missingAttribute) ↔
      ¬(effective document).IsDictionary ∧ ∃ o ∈ environment.overrides, o.IsSet := by
  constructor
  · rintro ⟨e, he, hmissing⟩
    have hne : e.report.category ≠ .wrongValue := by
      rw [hmissing]
      decide
    obtain ⟨⟨o, ho, href⟩, hcategory⟩ := refused_of_load_eq_error he hne
    rw [hmissing] at hcategory
    rcases hcategory with ⟨-, hother⟩ | ⟨hdocument, -⟩
    · cases hother
    · exact ⟨hdocument, o, ho, href.1⟩
  · rintro ⟨hdocument, o, ho, hset⟩
    obtain ⟨e, he, hcategory⟩ := load_of_refused ⟨o, ho, (Override.refused_iff_of_not_isDictionary hdocument).2 hset⟩
    rcases hcategory with ⟨hdictionary, -⟩ | ⟨-, hmissing⟩
    · exact absurd hdictionary hdocument
    · exact ⟨e, he, hmissing⟩

/-- **Which documents are reported for a wrong type**: dictionaries with a section that is none, if something is to be
overridden in it. -/
theorem exists_wrongType_iff :
    (∃ e, load environment document = .error e ∧ e.report.category = .wrongType) ↔
      (effective document).IsDictionary ∧
        ∃ o ∈ environment.overrides, o.IsSet ∧ (effective document).SpoilsSection o.title := by
  constructor
  · rintro ⟨e, he, htype⟩
    have hne : e.report.category ≠ .wrongValue := by
      rw [htype]
      decide
    obtain ⟨⟨o, ho, href⟩, hcategory⟩ := refused_of_load_eq_error he hne
    rw [htype] at hcategory
    rcases hcategory with ⟨hdocument, -⟩ | ⟨-, hother⟩
    · exact ⟨hdocument, o, ho, (Override.refused_iff_of_isDictionary hdocument).1 href⟩
    · cases hother
  · rintro ⟨hdocument, o, ho, hsection⟩
    obtain ⟨e, he, hcategory⟩ := load_of_refused ⟨o, ho, (Override.refused_iff_of_isDictionary hdocument).2 hsection⟩
    rcases hcategory with ⟨-, htype⟩ | ⟨hno, -⟩
    · exact ⟨e, he, htype⟩
    · exact absurd hdocument hno

/-- **How documents are reported.** A document is loaded or reported as a wrong value exactly if every override of the
environment reaches it. The other documents are reported too: for a missing attribute if something is to be overridden
in a document that is no dictionary, and for a wrong type if a section in which something is to be overridden is there
and is no dictionary. -/
theorem load_reports_iff (environment : Environment) (document : Document) :
    (((∃ s, load environment document = .ok s) ∨
        ∃ e, load environment document = .error e ∧ e.report.category = .wrongValue) ↔
      ∀ o ∈ environment.overrides, ¬o.Refused (effective document)) ∧
    ((∃ e, load environment document = .error e ∧ e.report.category = .missingAttribute) ↔
      ¬(effective document).IsDictionary ∧ ∃ o ∈ environment.overrides, o.IsSet) ∧
    ((∃ e, load environment document = .error e ∧ e.report.category = .wrongType) ↔
      (effective document).IsDictionary ∧
        ∃ o ∈ environment.overrides, o.IsSet ∧ (effective document).SpoilsSection o.title) :=
  ⟨exists_load_or_wrongValue_iff, exists_missingAttribute_iff, exists_wrongType_iff⟩

/-- **A section without content** that is overridden is reported as a wrong type, and not as a wrong value. -/
theorem load_empty_section :
    ∃ e, load ⟨some "DEBUG", none⟩ (Datum.dict [(.text "global", .null)]) = .error e ∧ e.report.category = .wrongType ∧
      ¬((∃ s, load ⟨some "DEBUG", none⟩ (Datum.dict [(.text "global", .null)]) = .ok s) ∨
        ∃ e', load ⟨some "DEBUG", none⟩ (Datum.dict [(.text "global", .null)]) = .error e' ∧
          e'.report.category = .wrongValue) := by
  have hload : load ⟨some "DEBUG", none⟩ (Datum.dict [(.text "global", .null)]) =
      .error (.argument (.unassignable "NoneType")) := rfl
  refine ⟨_, hload, rfl, ?_⟩
  rw [hload]
  rintro (⟨s, hs⟩ | ⟨e, he, hvalue⟩)
  · cases hs
  · cases he
    cases hvalue

end Settings

end Telemetry
