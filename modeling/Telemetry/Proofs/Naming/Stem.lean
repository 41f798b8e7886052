import Mathlib.Data.List.Induction
import Telemetry.Metadata
import Telemetry.Proofs.Naming.Lead
import Telemetry.Proofs.Naming.Nearest

/-!
# Metric names without reserved suffixes

A text becomes a metric name in two steps: what does not fit the grammar is replaced, and reserved suffixes are dropped
from the end in laps, as long as a lap finds some. A name ends with at most one reserved suffix, so the order in which they
are looked for does not matter, and what is left is the name without the longest run of them. Where nothing would be left,
the name is the first reserved word.

## Main definitions

* `AllReserved`: lists of reserved suffixes
* `MetricName.stem`: a name without the reserved suffixes at its end

## Main results

* `Naming.eq_of_reserved_suffix`: a name ends with at most one reserved suffix
* `MetricName.stem_append_flatten`, `MetricName.stem_flatten`: what is left of a name behind which reserved suffixes
  stand, and of reserved suffixes alone
* `MetricName.dropSuffixes_eq_stem`: laps over the reserved suffixes in any order leave the stem
* `MetricName.charsProblem?_stem`: what is left of a name of the grammar is a metric name
* `MetricName.sanitize_metric_exact`: which metric name a text becomes
-/

namespace Telemetry

namespace Naming

/-! ## Reserved suffixes at the end of a name -/

/-- **Reserved suffixes**, which may stand one behind the other. -/
def AllReserved (parts : List (List Char)) : Prop :=
  ∀ part ∈ parts, part ∈ reservedSuffixes

instance (parts : List (List Char)) : Decidable (AllReserved parts) :=
  inferInstanceAs (Decidable (∀ part ∈ parts, part ∈ reservedSuffixes))

theorem allReserved_append {parts others : List (List Char)} :
    AllReserved (parts ++ others) ↔ AllReserved parts ∧ AllReserved others :=
  List.forall_mem_append

theorem allReserved_cons {part : List Char} {parts : List (List Char)} :
    AllReserved (part :: parts) ↔ part ∈ reservedSuffixes ∧ AllReserved parts :=
  List.forall_mem_cons

variable {name front suffix other : List Char} {parts others : List (List Char)}

theorem eq_of_mem_of_suffix (h : suffix ∈ reservedSuffixes) (hother : other ∈ reservedSuffixes)
    (hsuffix : suffix <:+ other) : suffix = other := by
  revert other
  revert suffix
  decide

/-- **A name ends with at most one reserved suffix.** -/
theorem eq_of_reserved_suffix (h : suffix ∈ reservedSuffixes) (hother : other ∈ reservedSuffixes)
    (hname : suffix <:+ name) (hname' : other <:+ name) : suffix = other := by
  rcases List.suffix_or_suffix_of_suffix hname hname' with hle | hle
  · exact eq_of_mem_of_suffix h hother hle
  · exact (eq_of_mem_of_suffix hother h hle).symm

theorem of_reservedSuffix?_eq_some (h : reservedSuffix? name = some suffix) :
    suffix ∈ reservedSuffixes ∧ suffix <:+ name := by
  unfold reservedSuffix? at h
  have hends := List.find?_some h
  exact ⟨List.mem_of_find?_eq_some h, List.isSuffixOf_iff_suffix.1 hends⟩

/-- The reserved suffix that is found is the one with which the name ends. -/
theorem reservedSuffix?_eq_some_iff :
    reservedSuffix? name = some suffix ↔ suffix ∈ reservedSuffixes ∧ suffix <:+ name := by
  constructor
  · exact of_reservedSuffix?_eq_some
  · rintro ⟨hmem, hsuffix⟩
    cases hfound : reservedSuffix? name with
    | none => exact absurd hsuffix (reservedSuffix?_eq_none_iff.1 hfound suffix hmem)
    | some found =>
      obtain ⟨hfoundMem, hfoundSuffix⟩ := of_reservedSuffix?_eq_some hfound
      rw [eq_of_reserved_suffix hfoundMem hmem hfoundSuffix hsuffix]

/-- Every name is one that ends with no reserved suffix, with reserved suffixes behind it. -/
theorem exists_eq_append_flatten (name : List Char) :
    ∃ front parts, AllReserved parts ∧ reservedSuffix? front = none ∧ name = front ++ parts.flatten := by
  induction hlength : name.length using Nat.strongRecOn generalizing name with
  | _ length ih =>
    cases hfound : reservedSuffix? name with
    | none => exact ⟨name, [], by simp [AllReserved], hfound, by simp⟩
    | some suffix =>
      obtain ⟨hmem, rest, rfl⟩ := reservedSuffix?_eq_some_iff.1 hfound
      have hshorter : rest.length < length := by
        have hpos := List.length_pos_iff.2 (ne_nil_of_mem_reservedSuffixes hmem)
        rw [← hlength, List.length_append]
        omega
      obtain ⟨front, parts, hparts, hfront, rfl⟩ := ih _ hshorter rest rfl
      refine ⟨front, parts ++ [suffix], ?_, hfront, by simp⟩
      exact allReserved_append.2 ⟨hparts, by simpa [AllReserved] using hmem⟩

/-- **No run of reserved suffixes is longer** than the one behind a name that ends with none. -/
theorem length_flatten_le (hparts : AllReserved parts) (hothers : AllReserved others)
    (hfront : reservedSuffix? front = none) {rest : List Char}
    (h : front ++ parts.flatten = rest ++ others.flatten) : others.flatten.length ≤ parts.flatten.length := by
  -- Induction on the other run from its end: the last suffixes of both runs are the same.
  induction others using List.reverseRecOn generalizing parts with
  | nil => exact Nat.zero_le _
  | append_singleton others last ih =>
    obtain ⟨hfrontOthers, hlast⟩ := allReserved_append.1 hothers
    have hlast : last ∈ reservedSuffixes := hlast last List.mem_cons_self
    have hends : last <:+ front ++ parts.flatten := by
      rw [h, List.flatten_append, ← List.append_assoc, List.flatten_singleton]
      exact List.suffix_append _ last
    cases parts using List.reverseRecOn with
    | nil =>
      rw [List.flatten_nil, List.append_nil] at hends
      exact absurd hends (reservedSuffix?_eq_none_iff.1 hfront last hlast)
    | append_singleton parts part =>
      obtain ⟨hfrontParts, hpart⟩ := allReserved_append.1 hparts
      simp only [List.flatten_append, List.flatten_singleton, ← List.append_assoc] at hends h
      have hsame : last = part :=
        eq_of_reserved_suffix hlast (hpart part List.mem_cons_self) hends (List.suffix_append _ part)
      rw [hsame] at h ⊢
      have hle := ih hfrontParts hfrontOthers (List.append_cancel_right h)
      simp only [List.flatten_append, List.length_append]
      omega

end Naming

namespace MetricName

open Naming

variable {name front suffix : List Char} {parts : List (List Char)}

/-! ## Stems -/

/-- **A name without the reserved suffixes at its end.** Of reserved suffixes alone the first one is left, without its
separator. -/
def stem (name : List Char) : List Char :=
  match _found : reservedSuffix? name with
  | none => name
  | some suffix =>
    if name.length ≤ suffix.length then suffix.tail else stem (name.take (name.length - suffix.length))
termination_by name.length
decreasing_by
  have hpos := List.length_pos_iff.2 (ne_nil_of_mem_reservedSuffixes (of_reservedSuffix?_eq_some _found).1)
  rw [List.length_take]
  omega

/-- A name that ends with no reserved suffix is left alone. -/
theorem stem_of_reservedSuffix?_eq_none (h : reservedSuffix? name = none) : stem name = name := by
  rw [stem]
  split
  · rfl
  · next suffix hsome =>
    rw [h] at hsome
    cases hsome

theorem stem_of_reservedSuffix?_eq_some (h : reservedSuffix? name = some suffix) :
    stem name =
      if name.length ≤ suffix.length then suffix.tail else stem (name.take (name.length - suffix.length)) := by
  rw [stem]
  split
  · next hnone =>
    rw [h] at hnone
    cases hnone
  · next found hsome =>
    rw [h] at hsome
    cases hsome
    rfl

/-- Of a reserved suffix alone the word is left. -/
theorem stem_reservedSuffix (h : suffix ∈ reservedSuffixes) : stem suffix = suffix.tail := by
  rw [stem_of_reservedSuffix?_eq_some (reservedSuffix?_eq_some_iff.2 ⟨h, List.suffix_rfl⟩), if_pos (Nat.le_refl _)]

/-- A reserved suffix behind a name is dropped. -/
theorem stem_append (hfront : front ≠ []) (h : suffix ∈ reservedSuffixes) : stem (front ++ suffix) = stem front := by
  have hlong : ¬(front ++ suffix).length ≤ suffix.length := by
    have hpos := List.length_pos_iff.2 hfront
    rw [List.length_append]
    omega
  rw [stem_of_reservedSuffix?_eq_some (reservedSuffix?_eq_some_iff.2 ⟨h, List.suffix_append front suffix⟩), if_neg hlong,
    List.length_append, Nat.add_sub_cancel, List.take_left]

/-- **A run of reserved suffixes behind a name is dropped.** -/
theorem stem_append_run (hfront : front ≠ []) (hparts : AllReserved parts) :
    stem (front ++ parts.flatten) = stem front := by
  induction parts using List.reverseRecOn with
  | nil => rw [List.flatten_nil, List.append_nil]
  | append_singleton parts part ih =>
    obtain ⟨hparts, hpart⟩ := allReserved_append.1 hparts
    rw [List.flatten_append, List.flatten_singleton, ← List.append_assoc,
      stem_append (List.append_ne_nil_of_left_ne_nil hfront _) (hpart part List.mem_cons_self), ih hparts]

/-- **What is left of a name behind which reserved suffixes stand** is the name, if it ends with none. -/
theorem stem_append_flatten (hfront : front ≠ []) (hfree : reservedSuffix? front = none)
    (hparts : AllReserved parts) : stem (front ++ parts.flatten) = front := by
  rw [stem_append_run hfront hparts, stem_of_reservedSuffix?_eq_none hfree]

/-- **Of reserved suffixes alone the first one is left**, without its separator. -/
theorem stem_flatten {first : List Char} (h : AllReserved (first :: parts)) :
    stem (first :: parts).flatten = first.tail := by
  obtain ⟨hfirst, hparts⟩ := allReserved_cons.1 h
  rw [List.flatten_cons, stem_append_run (ne_nil_of_mem_reservedSuffixes hfirst) hparts, stem_reservedSuffix hfirst]

theorem charsProblem?_tail_reservedSuffix (h : suffix ∈ reservedSuffixes) : charsProblem? suffix.tail = none := by
  revert suffix
  decide

/-- **What is left of a name of the grammar is a metric name.** -/
theorem charsProblem?_stem (h : grammar.accepts name = true) : charsProblem? (stem name) = none := by
  obtain ⟨front, parts, hparts, hfree, rfl⟩ := exists_eq_append_flatten name
  by_cases hfront : front = []
  · subst hfront
    cases parts with
    | nil => cases h
    | cons first parts =>
      rw [List.nil_append, stem_flatten hparts]
      exact charsProblem?_tail_reservedSuffix (allReserved_cons.1 hparts).1
  · rw [stem_append_flatten hfront hfree hparts]
    exact charsProblem?_eq_none_iff.2 ⟨Grammar.accepts_of_append hfront h, hfree⟩

/-! ## Laps -/

section Laps

variable {suffixes : List (List Char)} {lap next : Lap} {word : List Char}

/-- What is dropped on a lap is not part of what is left. -/
theorem stem_drop (h : suffix ∈ reservedSuffixes) (hne : lap.name ≠ suffix) :
    stem (lap.drop suffix).name = stem lap.name := by
  rcases Lap.drop_cases suffix lap with ⟨-, hdrop⟩ | ⟨front, hname, hdrop⟩
  · rw [hdrop]
  · have hfront : front ≠ [] := by
      rintro rfl
      exact hne hname
    rw [hdrop, hname, stem_append hfront h]

/-- A name that ends a lap is a reserved suffix, of which the word is left. -/
theorem stem_of_dropEach_eq_error (hmem : ∀ suffix ∈ suffixes, suffix ∈ reservedSuffixes)
    (h : dropEach suffixes lap = .error word) : stem lap.name = word := by
  induction suffixes generalizing lap with
  | nil => cases h
  | cons suffix suffixes ih =>
    rw [List.forall_mem_cons] at hmem
    rw [dropEach] at h
    split at h
    · next hname =>
      cases h
      rw [hname, stem_reservedSuffix hmem.1]
    · next hne => rw [← stem_drop hmem.1 hne, ih hmem.2 h]

/-- **A lap changes nothing of what is left.** -/
theorem stem_of_dropEach_eq_ok (hmem : ∀ suffix ∈ suffixes, suffix ∈ reservedSuffixes)
    (h : dropEach suffixes lap = .ok next) : stem next.name = stem lap.name := by
  induction suffixes generalizing lap with
  | nil =>
    cases h
    rfl
  | cons suffix suffixes ih =>
    rw [List.forall_mem_cons] at hmem
    rw [dropEach] at h
    split at h
    · cases h
    · next hne => rw [ih hmem.2 h, stem_drop hmem.1 hne]

/-- A lap that changes nothing has looked for all suffixes. -/
theorem of_dropEach_unchanged (h : dropEach suffixes lap = .ok next) (hchanged : next.changed = false) :
    next = lap ∧ ∀ suffix ∈ suffixes, ¬suffix <:+ lap.name := by
  induction suffixes generalizing lap with
  | nil =>
    cases h
    exact ⟨rfl, nofun⟩
  | cons suffix suffixes ih =>
    rw [dropEach] at h
    split at h
    · cases h
    · obtain ⟨hnext, hrest⟩ := ih h
      rcases Lap.drop_cases suffix lap with ⟨hnot, hdrop⟩ | ⟨front, -, hdrop⟩
      · rw [hdrop] at hnext hrest
        exact ⟨hnext, List.forall_mem_cons.2 ⟨hnot, hrest⟩⟩
      · rw [hnext, hdrop] at hchanged
        cases hchanged

/-- **Laps drop the reserved suffixes at the end of a name**, whatever the order of the table. -/
theorem dropSuffixes_eq_stem {table : List (List Char)} (htable : ∀ suffix, suffix ∈ table ↔ suffix ∈ reservedSuffixes)
    (nonempty : ∀ suffix ∈ table, suffix ≠ []) (name : List Char) : dropSuffixes table nonempty name = stem name := by
  have hmem (suffix : List Char) : suffix ∈ table → suffix ∈ reservedSuffixes := (htable suffix).1
  fun_induction dropSuffixes table nonempty name with
  | case1 name word hlap => exact (stem_of_dropEach_eq_error hmem hlap).symm
  | case2 name next hlap hchanged ih => rw [ih, stem_of_dropEach_eq_ok hmem hlap]
  | case3 name next hlap hchanged =>
    obtain ⟨rfl, hnone⟩ := of_dropEach_unchanged hlap (Bool.eq_false_iff.2 hchanged)
    have hfree : reservedSuffix? name = none :=
      reservedSuffix?_eq_none_iff.2 fun suffix hsuffix => hnone suffix ((htable suffix).2 hsuffix)
    exact (stem_of_reservedSuffix?_eq_none hfree).symm

end Laps

/-! ## Metric names from texts -/

variable {text : String}

theorem sanitizeChars_eq (chars : List Char) : sanitizeChars chars = stem (grammar.replace chars) :=
  dropSuffixes_eq_stem (fun _ => Iff.rfl) _ _

theorem toList_sanitize (text : String) : (sanitize text).toList = stem (grammar.replace text.toList) := by
  rw [sanitize, String.toList_ofList, sanitizeChars_eq]

theorem nearest_eq (text : String) : nearest grammar stem text = sanitize text := by
  rw [nearest, ← sanitizeChars_eq, sanitize]

/-- Replacing what does not fit and dropping reserved suffixes leads into the metric names. -/
theorem sanitizer : Sanitizer .metric grammar stem where
  standard := grammar_standard
  sanitizeText_eq text := by rw [nearest_eq, sanitizeText]
  legal_strip chars h := by
    rw [textProblem?, problem?, String.toList_ofList]
    exact charsProblem?_stem h
  accepts_of_legal _ h := (problem?_eq_none_iff.1 h).1
  strip_of_legal _ h := stem_of_reservedSuffix?_eq_none (problem?_eq_none_iff.1 h).2

/-- A text that is not empty can be brought into the grammar. -/
theorem sanitize_text_of_ne (h : text ≠ "") : Naming.sanitize .metric (.text text) = .ok (sanitize text) :=
  (sanitizer.sanitize_eq h).trans (congrArg _ (nearest_eq text))

/-- **A text that is not empty becomes a metric name.** -/
theorem problem?_sanitize (h : text ≠ "") : problem? (sanitize text) = none := by
  rw [← nearest_eq]
  exact sanitizer.textProblem?_nearest h

/-- **Exactly the metric names are left alone.** -/
theorem sanitize_eq_self_iff : Naming.sanitize .metric (.text text) = .ok text ↔ problem? text = none :=
  sanitizer.sanitize_eq_self_iff

/-- **Only the empty text becomes no metric name.** -/
theorem exists_sanitize_eq_error_iff : (∃ e, Naming.sanitize .metric (.text text) = .error e) ↔ text = "" :=
  sanitizer.exists_eq_error_iff

/-- **The reserved suffixes that a text loses**, if other characters stand in front of them: no more of them stand
at its end. -/
theorem exists_run_of_sanitize (h : ¬∃ parts, AllReserved parts ∧ grammar.replace text.toList = parts.flatten) :
    ∃ parts, AllReserved parts ∧ grammar.replace text.toList = (sanitize text).toList ++ parts.flatten ∧
      ∀ front others, AllReserved others → grammar.replace text.toList = front ++ others.flatten →
        others.flatten.length ≤ parts.flatten.length := by
  obtain ⟨front, parts, hparts, hfree, hreplace⟩ := exists_eq_append_flatten (grammar.replace text.toList)
  have hfront : front ≠ [] := by
    rintro rfl
    exact h ⟨parts, hparts, hreplace⟩
  refine ⟨parts, hparts, ?_, fun rest others hothers hrest => ?_⟩
  · rw [toList_sanitize, hreplace, stem_append_flatten hfront hfree hparts]
  · exact length_flatten_le hparts hothers hfree (hreplace.symm.trans hrest)

/-- A metric name is one of metadata, whatever help there is. -/
theorem exists_make_of_problem?_eq_none (h : problem? text = none) (help : Option String) :
    ∃ m, Metadata.make (.text text) help (.datum .null) = .ok m ∧ m.name = text := by
  refine ⟨⟨text, help, none, h⟩, ?_, rfl⟩
  rw [Metadata.make, Metadata.checkName_text h]
  rfl

/-- **Which metric name a text becomes.** Every text becomes one, the empty text excepted. Let everything that does not
fit the grammar be replaced. If this leads to reserved suffixes alone, the name is the first of them without its
separator; if not, it is all but the longest run of reserved suffixes at the end. So exactly the metric names are left
alone, a second time changes nothing, and the name is one of metadata. -/
theorem sanitize_metric_exact :
    (∀ text : String, text ≠ "" → ∃ name, Naming.sanitize .metric (.text text) = .ok name ∧ problem? name = none ∧
        (∀ first parts, AllReserved (first :: parts) → grammar.replace text.toList = (first :: parts).flatten →
          name.toList = first.tail) ∧
        ((¬∃ parts, AllReserved parts ∧ grammar.replace text.toList = parts.flatten) →
          ∃ parts, AllReserved parts ∧ grammar.replace text.toList = name.toList ++ parts.flatten ∧
            ∀ front others, AllReserved others → grammar.replace text.toList = front ++ others.flatten →
              others.flatten.length ≤ parts.flatten.length) ∧
        Naming.sanitize .metric (.text name) = .ok name ∧
        ∀ help, ∃ m, Metadata.make (.text name) help (.datum .null) = .ok m ∧ m.name = name) ∧
      (∀ text : String, Naming.sanitize .metric (.text text) = .ok text ↔ problem? text = none) ∧
      (∀ text : String, (∃ e, Naming.sanitize .metric (.text text) = .error e) ↔ text = "") ∧
      ∀ e, Naming.sanitize .metric (.text "") = .error e → e.category = .invalid := by
  refine ⟨fun text htext => ?_, fun _ => sanitize_eq_self_iff, fun _ => exists_sanitize_eq_error_iff, fun e he => ?_⟩
  · have hlegal := problem?_sanitize htext
    refine ⟨sanitize text, sanitize_text_of_ne htext, hlegal, fun first parts hparts hreplace => ?_,
      exists_run_of_sanitize, sanitize_eq_self_iff.2 hlegal, exists_make_of_problem?_eq_none hlegal⟩
    rw [toList_sanitize, hreplace, stem_flatten hparts]
  · cases he
    rfl

/-- Of two reserved suffixes the word of the first one is left, and a name that has no reserved suffix is left alone. -/
theorem sanitize_totalInfo_uptime :
    Naming.sanitize .metric (.text ".total info") = .ok "total" ∧
      Naming.sanitize .metric (.text "uptime") = .ok "uptime" := by
  obtain ⟨hnames, hself, -⟩ := sanitize_metric_exact
  refine ⟨?_, (hself "uptime").2 (by decide)⟩
  obtain ⟨name, hname, -, hfirst, -⟩ := hnames ".total info" (by decide)
  have hchars := hfirst "_total".toList ["_info".toList] (by decide) (by decide)
  rw [hname, ← String.toList_inj.1 (hchars.trans (by decide : "_total".toList.tail = "total".toList))]

end MetricName

end Telemetry
