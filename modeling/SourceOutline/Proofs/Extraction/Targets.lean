import SourceOutline.Proofs.Extraction.Agreement
import SourceOutline.Proofs.Extraction.FirstFailure
import SourceOutline.Proofs.Path

/-! What an error about an unsupported language names. A batch notices by itself that it was given
no grammar for a file and names the file. A single file learns it from the registry, which knows
nothing but the id of the language and names that. -/
namespace SourceOutline

theorem Text.occursIn_append (before part : List Char) : occursIn part (before ++ part) := by
  induction before with
  | nil => cases part <;> simp [occursIn]
  | cons c before ih => simp [occursIn, ih]

theorem Text.contains_append (before part : String) : contains (before ++ part) part := by
  unfold contains
  rw [String.toList_append]
  exact occursIn_append _ _

namespace OutlineError

/-- The target of an error is the given text, and its message mentions it. -/
structure Names (e : OutlineError) (text : String) : Prop where
  target : e.report.details.lookup "target" = some (.text text)
  message : Text.contains e.message text

theorem names_unsupportedLanguage {target text : String} :
    (unsupportedLanguage target).Names text ↔ target = text := by
  constructor
  · intro h
    have htarget : some (Value.text target) = some (Value.text text) := h.target
    simpa using htarget
  · rintro rfl
    refine ⟨rfl, ?_⟩
    change Text.contains ("No grammar or fallback parser for " ++ target) target
    exact Text.contains_append _ _

theorem name_eq_unsupported_iff {e : OutlineError} :
    e.name = "UNSUPPORTED_LANGUAGE" ↔ e.code = .unsupportedLanguage := by
  rw [name_eq]
  cases e.code <;> simp [ErrorCode.name]

end OutlineError

section Loading

variable {r : Registry} {id : String}

theorem Slot.attempt_ne_unsupported {l : Language} {slot : Slot} {e : OutlineError}
    (h : (slot.attempt r l).1 = .error e) : e.code ≠ .unsupportedLanguage := by
  unfold attempt at h
  cases hload : r.load l slot.loads with
  | error f =>
    rw [hload] at h
    cases h
    rintro ⟨⟩
  | ok _ =>
    rw [hload] at h
    cases hcompile : r.compile l slot.compiles with
    | error f =>
      rw [hcompile] at h
      cases h
      rintro ⟨⟩
    | ok q =>
      rw [hcompile] at h
      cases h

theorem Ledger.load_ne_unsupported {ledger : Ledger} (hgrammar : (r.grammarLanguage? id).isSome)
    {e : OutlineError} (h : (ledger.load r id).1 = .error e) : e.code ≠ .unsupportedLanguage := by
  obtain ⟨l, hl⟩ := Option.isSome_iff_exists.mp hgrammar
  rw [load_of_some hl] at h
  cases hkept : (ledger.slot id l.name).kept with
  | some g =>
    simp only [Slot.load, hkept] at h
    cases h
  | none =>
    cases hattempt : ((ledger.slot id l.name).attempt r l).1 with
    | ok g =>
      rw [Slot.load_of_ok hkept hattempt] at h
      cases h
    | error e' =>
      rw [Slot.load_of_error hkept hattempt] at h
      exact Slot.attempt_ne_unsupported (hattempt.trans h)

namespace Registry

/-- After some ids were asked for, the report has an answer for those with a grammar and for no
others, and no failure in it is about support. -/
structure LoadReport.Honest (r : Registry) (asked : List String) (report : LoadReport) : Prop where
  answered : ∀ id, (report.answer? id).isSome ↔ id ∈ asked ∧ (r.grammarLanguage? id).isSome
  failures : ∀ id e, (id, e) ∈ report.failures → e.code ≠ .unsupportedLanguage

theorem LoadReport.isSome_answer?_add (report : LoadReport) (a : String) (answer : Answer) :
    ((report.add a answer).answer? id).isSome ↔ (report.answer? id).isSome ∨ id = a := by
  unfold LoadReport.answer?
  by_cases hid : id = a
  · subst hid
    cases answer <;> cases hfailure : report.failures.lookup id <;>
      cases hloaded : report.loaded.lookup id <;>
      simp [add, List.lookup_append, hfailure, hloaded]
  · cases answer <;> cases hfailure : report.failures.lookup id <;>
      cases hloaded : report.loaded.lookup id <;>
      simp [add, List.lookup_append, lookup_cons_of_ne hid, hfailure, hloaded, hid]

theorem LoadReport.Honest.loadNext {asked : List String} {report : LoadReport}
    (h : report.Honest r asked) (a : String) (s : Session) :
    (r.loadNext a report s).1.Honest r (asked ++ [a]) := by
  rw [(r.loadNext_eq a report s).1]
  cases hgrammar : (r.grammarLanguage? a).isSome with
  | false =>
    refine ⟨fun id => ?_, h.failures⟩
    have hother : id = a → ¬(r.grammarLanguage? id).isSome := by
      rintro rfl
      simp [hgrammar]
    rw [if_neg (by simp), h.answered, List.mem_append, List.mem_singleton]
    tauto
  | true =>
    rw [if_pos rfl]
    refine ⟨fun id => ?_, fun id e hentry => ?_⟩
    · have hself : id = a → (r.grammarLanguage? id).isSome := by
        rintro rfl
        exact hgrammar
      rw [isSome_answer?_add, h.answered, List.mem_append, List.mem_singleton]
      tauto
    · rw [failures_add, List.mem_append] at hentry
      rcases hentry with hentry | hentry
      · exact h.failures id e hentry
      · cases hanswer : (s.ledger.load r a).1 with
        | ok g => simp [hanswer, failure?] at hentry
        | error e' =>
          obtain ⟨-, rfl⟩ : id = a ∧ e = e' := by simpa [hanswer, failure?] using hentry
          exact Ledger.load_ne_unsupported hgrammar hanswer

theorem LoadReport.Honest.loadEach {asked : List String} {report : LoadReport}
    (h : report.Honest r asked) (ids : List String) (s : Session) :
    (r.loadEach ids report s).1.Honest r (asked ++ ids) := by
  induction ids generalizing asked report s with
  | nil => simpa [Registry.loadEach] using h
  | cons a ids ih =>
    have hrest := ih (h.loadNext a s) (r.loadNext a report s).2
    rwa [List.append_assoc, List.singleton_append] at hrest

theorem honest_loadAll (r : Registry) (ids : List String) (s : Session) :
    (r.loadAll ids s).1.Honest r (distinctIds ids) := by
  have hstart : LoadReport.Honest r [] ⟨[], []⟩ := ⟨by simp [LoadReport.answer?], by simp⟩
  exact hstart.loadEach (distinctIds ids) s

end Registry

end Loading

namespace Extractor

variable {x : Extractor} {d : Disk} {p : Path} {s : Session}

theorem capturesIn_ne_unsupported {l : Language} {g : Option LoadedGrammar}
    {content : Text.Utf8.Bytes} {e : OutlineError}
    (h : (x.capturesIn p l g content s).1 = .error e) : e.code ≠ .unsupportedLanguage := by
  unfold capturesIn at h
  split at h
  · rename_i g _
    rw [fst_grammarCaptures] at h
    cases hparse : x.parse g.language (s.parses.count g.language) content with
    | error f =>
      rw [hparse] at h
      cases h
      rintro ⟨⟩
    | ok answer =>
      rw [hparse] at h
      cases answer with
      | none =>
        cases h
        rintro ⟨⟩
      | some tree =>
        change capturesOfOutcome l.name (x.search l.name (s.searches.count l.name) g.query tree) =
          _ at h
        cases hsearch : x.search l.name (s.searches.count l.name) g.query tree with
        | error f =>
          rw [hsearch] at h
          cases h
          rintro ⟨⟩
        | ok found =>
          rw [hsearch] at h
          cases h
  · cases h

theorem raises_of_outlineWith {l : Language} {g : Option LoadedGrammar} {e : OutlineError}
    (h : (x.outlineWith d p l g s).1 = .error e) (hcode : e.code = .unsupportedLanguage) :
    x.Raises e := by
  rw [fst_outlineWith] at h
  unfold definitionsIn at h
  cases hread : d.read p with
  | error cause =>
    rw [hread] at h
    cases cause <;> cases h <;> cases hcode
  | ok content =>
    rw [hread] at h
    dsimp only at h
    cases hcaptures : (x.capturesIn p l g content s).1 with
    | error e' =>
      rw [hcaptures] at h
      cases h
      exact absurd hcode (capturesIn_ne_unsupported hcaptures)
    | ok captures =>
      rw [hcaptures] at h
      simp only [definitionsOf] at h
      cases hresult : synthesize captures (Text.lines (Text.Utf8.decode content))
        x.limits.minLines x.lineTest with
      | error cause =>
        rw [hresult] at h
        obtain ⟨line, trouble, htest, rfl⟩ | ⟨rfl, -⟩ :=
          synthesize_error x.limits.minLines_pos hresult
        · cases trouble with
          | known e' =>
            cases h
            exact ⟨line, htest⟩
          | crash fault =>
            cases h
            cases hcode
        · cases h
          cases hcode
      | ok ds =>
        rw [hresult] at h
        cases h

/-- The registry has no grammar for the language of a path. -/
structure Lacks (x : Extractor) (p : Path) (l : Language) : Prop where
  language : Language.forPath? p = some l
  needed : l.byHeadings = false
  absent : x.registry.grammarLanguage? l.name = none

/-- A file can be outlined neither by its headings nor through a grammar of the registry. -/
def Unsupported (x : Extractor) (p : Path) : Prop := Language.forPath? p = none ∨ ∃ l, x.Lacks p l

section Batch

variable {report : Registry.LoadReport} {ids : List String} (hreport : report.Honest x.registry ids)

include hreport

theorem assignment_of_unsupported (h : x.Unsupported p) :
    assignment report p = .error (.unsupportedLanguage p.toString) := by
  rcases h with hnone | ⟨l, hlacks⟩
  · simp [assignment, hnone]
  · have hanswer : report.answer? l.name = none := by
      rw [← Option.not_isSome_iff_eq_none, hreport.answered, hlacks.absent]
      simp
    obtain ⟨hfailures, hloaded⟩ := Registry.LoadReport.answer?_eq_none_iff.mp hanswer
    simp [assignment, hlacks.language, hlacks.needed, hfailures, hloaded]

theorem assignment_ne_unsupported (hids : ∀ l, Language.forPath? p = some l → l.byHeadings = false →
    l.name ∈ ids) (h :
    ¬x.Unsupported p) {e : OutlineError} (hassignment : assignment report p = .error e) :
    e.code ≠ .unsupportedLanguage := by
  cases hl : Language.forPath? p with
  | none => exact absurd (.inl hl) h
  | some l =>
    cases hheadings : l.byHeadings with
    | true => simp [assignment, hl, hheadings] at hassignment
    | false =>
      cases habsent : x.registry.grammarLanguage? l.name with
      | none => exact absurd (.inr ⟨l, hl, hheadings, habsent⟩) h
      | some m =>
        have hsome := (hreport.answered l.name).mpr ⟨hids l hl hheadings, by simp [habsent]⟩
        obtain ⟨answer, hanswer⟩ := Option.isSome_iff_exists.mp hsome
        rw [assignment_of_answer hl hheadings hanswer] at hassignment
        cases answer with
        | ok g => cases hassignment
        | error e =>
          cases hassignment
          exact hreport.failures l.name e
            (mem_of_lookup (Registry.LoadReport.answer?_eq_error_iff.mp hanswer))

theorem outlineIn_unsupported_iff
    (hids : ∀ l, Language.forPath? p = some l → l.byHeadings = false → l.name ∈ ids)
    {e : OutlineError} (hraises : ¬x.Raises e) :
    (x.outlineIn d report p s).1 = .error e ∧ e.code = .unsupportedLanguage ↔
      x.Unsupported p ∧ e = .unsupportedLanguage p.toString := by
  unfold outlineIn
  by_cases h : x.Unsupported p
  · rw [assignment_of_unsupported hreport h, fst_fail, and_iff_right h, Except.error.injEq]
    constructor
    · rintro ⟨rfl, -⟩
      rfl
    · rintro rfl
      exact ⟨rfl, rfl⟩
  · rw [iff_false_intro h, false_and, iff_false]
    rintro ⟨houtcome, hcode⟩
    cases hassignment : assignment report p with
    | error e' =>
      rw [hassignment, fst_fail] at houtcome
      cases houtcome
      exact assignment_ne_unsupported hreport hids h hassignment hcode
    | ok assigned =>
      rw [hassignment] at houtcome
      exact hraises (raises_of_outlineWith houtcome hcode)

end Batch

theorem mem_unsupported_iff (d : Disk) (requested : Option Int) (schedule : List Nat)
    (paths : List Path) (s : Session) {e : OutlineError} (hraises : ¬x.Raises e) :
    (p, .error e) ∈ (x.outlineTogether d requested schedule paths s).1 ∧
      e.name = "UNSUPPORTED_LANGUAGE" ↔
      p ∈ paths ∧ x.Permits p ∧ x.Unsupported p ∧ e = .unsupportedLanguage p.toString := by
  obtain ⟨after, -, hkeys, hends⟩ := x.outlineTogether_report d requested schedule paths s
  have hhonest := x.registry.honest_loadAll (neededIds (x.admitted paths s)) after
  have hids : ∀ {p}, p ∈ x.admitted paths s → ∀ l, Language.forPath? p = some l →
      l.byHeadings = false → l.name ∈ Registry.distinctIds (neededIds (x.admitted paths s)) :=
    fun hp l hl hheadings => Registry.mem_distinctIds.mpr (name_mem_neededIds hp hl hheadings)
  rw [← and_assoc, ← mem_admitted (s := s), OutlineError.name_eq_unsupported_iff]
  constructor
  · rintro ⟨hentry, hcode⟩
    have hp : p ∈ x.admitted paths s := hkeys ▸ List.mem_map_of_mem hentry
    obtain ⟨t, ht⟩ := hends p _ hentry
    exact ⟨hp, (outlineIn_unsupported_iff hhonest (hids hp) hraises).mp ⟨ht.symm, hcode⟩⟩
  · rintro ⟨hp, hunsupported, rfl⟩
    obtain ⟨⟨q, o⟩, hentry, rfl⟩ := List.mem_map.mp (hkeys ▸ hp)
    obtain ⟨t, ht⟩ := hends q o hentry
    rw [((outlineIn_unsupported_iff hhonest (hids hp) hraises).mpr ⟨hunsupported, rfl⟩).1] at ht
    exact ⟨ht ▸ hentry, rfl⟩

theorem failureAt_language_iff (d : Disk) (p : Path) (s : Session) (e : OutlineError) :
    x.failureAt d p s .language = some e ↔
      (Language.forPath? p = none ∧ e = .unsupportedLanguage p.toString) ∨
        ∃ l, x.Lacks p l ∧ s.isLoaded l.name = false ∧ e = .unsupportedLanguage l.name := by
  constructor
  · intro h
    simp only [failureAt] at h
    split at h
    · rename_i hnone
      exact .inl ⟨hnone, (Option.some.inj h).symm⟩
    · rename_i l hl
      split at h
      · cases h
      · rename_i hunknown
        simp only [Bool.or_eq_true, not_or, Bool.not_eq_true, Option.isSome_eq_false_iff,
          Option.isNone_iff_eq_none] at hunknown
        obtain ⟨⟨hheadings, hloaded⟩, habsent⟩ := hunknown
        exact .inr ⟨l, ⟨hl, hheadings, habsent⟩, hloaded, (Option.some.inj h).symm⟩
  · rintro (⟨hnone, rfl⟩ | ⟨l, hlacks, hloaded, rfl⟩)
    · simp [failureAt, hnone]
    · simp [failureAt, hlacks.language, hlacks.needed, hlacks.absent, hloaded]

theorem stage_of_kindAt {stage : Stage} (h : kindAt d p stage = "UNSUPPORTED_LANGUAGE") :
    stage = .language := by
  cases stage with
  | language => rfl
  | read =>
    simp only [kindAt] at h
    split at h <;> simp at h
  | _ => simp [kindAt] at h

/-- A single file ends as unsupported when its first stage fails: by its path without a language, by
its language otherwise. -/
theorem outlineFile_unsupported_iff (d : Disk) (p : Path) (s : Session) {e : OutlineError}
    (hraises : ¬x.Raises e) :
    (x.outlineFile d p s).1 = some (.error e) ∧ e.name = "UNSUPPORTED_LANGUAGE" ↔
      x.Permits p ∧ ((Language.forPath? p = none ∧ e = .unsupportedLanguage p.toString) ∨
        ∃ l, x.Lacks p l ∧ s.isLoaded l.name = false ∧ e = .unsupportedLanguage l.name) := by
  rw [← failureAt_language_iff d]
  by_cases hpermits : x.Permits p
  · rw [outcome_error_iff hpermits, and_iff_right hpermits]
    constructor
    · rintro ⟨hfirst, hname⟩
      obtain ⟨stage, -, hfailure⟩ := List.exists_of_findSome?_eq_some hfirst
      obtain hkind | ⟨-, hraised⟩ := name_of_failureAt hfailure
      · obtain rfl := stage_of_kindAt (hkind.symm.trans hname)
        exact hfailure
      · exact absurd hraised hraises
    · intro hfailure
      refine ⟨?_, ?_⟩
      · rw [Stage.all, List.findSome?_cons, hfailure]
      · exact (name_of_failureAt hfailure).resolve_right fun h => (by cases h.1)
  · simp [outlineFile_of_not_permits hpermits, hpermits]

theorem name_ne_toString {l : Language} (hp : p.Normal) (hl : Language.forPath? p = some l) :
    l.name ≠ p.toString := by
  intro hname
  have hnone : ∀ name ∈ Language.table.map (·.name),
      (Language.forPath? (Path.ofString name)).isNone := by decide +kernel
  have hother := hnone l.name (List.mem_map_of_mem (mem_table_of_forPath? hl))
  rw [hname, hp.ofString_toString, hl] at hother
  cases hother

/-- What is named when a language is not supported. A batch names the file. A single call names the
file when its path has no language, but the language when the registry has no grammar for it; so a
call that does not name the file is one for a path whose language the registry lacks, and then batch
and single call differ in their errors. An error of this kind that the line test raises is its
own. -/
theorem unsupported_language_targets (x : Extractor) (d : Disk) (s : Session)
    (requested : Option Int) (schedule : List Nat) (texts : List String) (text : String) :
    let p := Path.ofString text
    let outcomes := (x.outlineTogether d requested schedule (texts.map Path.ofString) s).1
    (∀ e, ¬x.Raises e → ((p, .error e) ∈ outcomes ∧ e.name = "UNSUPPORTED_LANGUAGE" ↔
      p ∈ texts.map Path.ofString ∧ x.Permits p ∧ x.Unsupported p ∧
        e = .unsupportedLanguage p.toString)) ∧
    (∀ e, ¬x.Raises e →
      ((x.outlineFile d p s).1 = some (.error e) ∧ e.name = "UNSUPPORTED_LANGUAGE" ↔
        x.Permits p ∧ ((Language.forPath? p = none ∧ e = .unsupportedLanguage p.toString) ∨
          ∃ l, x.Lacks p l ∧ s.isLoaded l.name = false ∧ e = .unsupportedLanguage l.name))) ∧
    (∀ target : String,
      (OutlineError.unsupportedLanguage target).Names p.toString ↔ target = p.toString) ∧
    ((∀ e, x.Raises e → e.name ≠ "UNSUPPORTED_LANGUAGE") →
      ((∃ e, (x.outlineFile d p s).1 = some (.error e) ∧ e.name = "UNSUPPORTED_LANGUAGE" ∧
          ¬e.Names p.toString) ↔
        x.Permits p ∧ ∃ l, x.Lacks p l ∧ s.isLoaded l.name = false) ∧
      ((∃ e e', (p, .error e) ∈ outcomes ∧ e.name = "UNSUPPORTED_LANGUAGE" ∧
          (x.outlineFile d p s).1 = some (.error e') ∧ e'.name = "UNSUPPORTED_LANGUAGE" ∧ e' ≠ e) ↔
        p ∈ texts.map Path.ofString ∧ x.Permits p ∧
          ∃ l, x.Lacks p l ∧ s.isLoaded l.name = false)) := by
  intro p outcomes
  have hp : p.Normal := Path.normal_ofString text
  have hbatch : ∀ e, ¬x.Raises e → _ := fun e he =>
    mem_unsupported_iff (p := p) d requested schedule (texts.map Path.ofString) s he
  have hsingle : ∀ e, ¬x.Raises e → _ := fun e he => outlineFile_unsupported_iff d p s he
  refine ⟨hbatch, hsingle, fun target => OutlineError.names_unsupportedLanguage, fun hown => ?_⟩
  have hfree : ∀ {e : OutlineError}, e.name = "UNSUPPORTED_LANGUAGE" → ¬x.Raises e :=
    fun hname hraises => hown _ hraises hname
  have hmade : ∀ target, ¬x.Raises (.unsupportedLanguage target) := fun _ => hfree rfl
  refine ⟨⟨?_, ?_⟩, ⟨?_, ?_⟩⟩
  · rintro ⟨e, houtcome, hname, hnames⟩
    obtain ⟨hpermits, ⟨-, rfl⟩ | ⟨l, hlacks, hloaded, -⟩⟩ :=
      (hsingle e (hfree hname)).mp ⟨houtcome, hname⟩
    · exact absurd (OutlineError.names_unsupportedLanguage.mpr rfl) hnames
    · exact ⟨hpermits, l, hlacks, hloaded⟩
  · rintro ⟨hpermits, l, hlacks, hloaded⟩
    obtain ⟨houtcome, hname⟩ := (hsingle (.unsupportedLanguage l.name) (hmade _)).mpr
      ⟨hpermits, .inr ⟨l, hlacks, hloaded, rfl⟩⟩
    exact ⟨_, houtcome, hname, fun h =>
      name_ne_toString hp hlacks.language (OutlineError.names_unsupportedLanguage.mp h)⟩
  · rintro ⟨e, e', hentry, hname, houtcome, hname', hne⟩
    obtain ⟨hmem, -, -, rfl⟩ := (hbatch e (hfree hname)).mp ⟨hentry, hname⟩
    obtain ⟨hpermits, ⟨-, rfl⟩ | ⟨l, hlacks, hloaded, -⟩⟩ :=
      (hsingle e' (hfree hname')).mp ⟨houtcome, hname'⟩
    · exact absurd rfl hne
    · exact ⟨hmem, hpermits, l, hlacks, hloaded⟩
  · rintro ⟨hmem, hpermits, l, hlacks, hloaded⟩
    obtain ⟨hentry, hname⟩ := (hbatch _ (hmade _)).mpr ⟨hmem, hpermits, .inr ⟨l, hlacks⟩, rfl⟩
    obtain ⟨houtcome, hname'⟩ := (hsingle (.unsupportedLanguage l.name) (hmade _)).mpr
      ⟨hpermits, .inr ⟨l, hlacks, hloaded, rfl⟩⟩
    refine ⟨_, _, hentry, hname, houtcome, hname', fun heq => ?_⟩
    simp only [OutlineError.unsupportedLanguage.injEq, Value.scalar.injEq, Scalar.text.injEq] at heq
    exact name_ne_toString hp hlacks.language heq

def narrow : Extractor where
  registry :=
    { languages := Language.byName.filter (·.1 == "go")
      load := fun _ _ => .ok ()
      compile := fun _ _ => .ok [] }
  parse := fun _ _ _ => .ok none
  search := fun _ _ _ _ => .ok []
  access := none
  lineTest := InlineMarkup.test
  limits := ⟨3, 8, by decide, by decide⟩

theorem single_call_names_language :
    let p := Path.ofString "a.py"
    (p, .error (.unsupportedLanguage "a.py")) ∈
      (narrow.outlineTogether (.empty []) none [] [p] .start).1 ∧
      (narrow.outlineFile (.empty []) p .start).1 = some (.error (.unsupportedLanguage "python")) ∧
      ¬(OutlineError.unsupportedLanguage "python").Names "a.py" := by
  intro p
  have hpermits : narrow.Permits p := fun check hcheck => (by cases hcheck)
  have hname : (Language.forPath? p).map (·.name) = some "python" := by decide +kernel
  have hheadings : (Language.forPath? p).map (·.byHeadings) = some false := by decide +kernel
  have habsent : (narrow.registry.grammarLanguage? "python").isNone := by decide +kernel
  obtain ⟨l, hl, hname⟩ := Option.map_eq_some_iff.mp hname
  rw [hl] at hheadings
  have hlacks : narrow.Lacks p l := ⟨hl, Option.some.inj hheadings, by
    rw [hname]
    exact Option.isNone_iff_eq_none.mp habsent⟩
  have hraises : ∀ e, ¬narrow.Raises e := by
    rintro e ⟨line, hline⟩
    cases hline
  refine ⟨?_, ?_, fun h => ?_⟩
  · have htext : p.toString = "a.py" := by decide +kernel
    rw [← htext]
    exact ((mem_unsupported_iff _ none [] [p] .start (hraises _)).mpr ⟨.head _, hpermits,
      .inr ⟨l, hlacks⟩, rfl⟩).1
  · rw [← hname]
    exact ((outlineFile_unsupported_iff _ p .start (hraises _)).mpr ⟨hpermits,
      .inr ⟨l, hlacks, rfl, rfl⟩⟩).1
  · exact absurd (OutlineError.names_unsupportedLanguage.mp h) (by decide)

end Extractor

end SourceOutline
