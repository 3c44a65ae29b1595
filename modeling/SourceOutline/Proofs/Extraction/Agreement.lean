import SourceOutline.Proofs.Extraction.Pool
import SourceOutline.Proofs.Grammar.Report

/-! A batch and its files one by one. A batch checks access first, then loads all grammars, then
works on the files together, and it reports failures to load by another way than a single file does.
For a steady extractor whose registry holds the languages that are needed, none of this shows: every
file has the outcome it has alone. -/
namespace SourceOutline

/-- Parser and cursor answer by their input alone. -/
structure Extractor.Steady (x : Extractor) : Prop where
  parse : ∀ language m n content, x.parse language m content = x.parse language n content
  search : ∀ language m n q tree, x.search language m q tree = x.search language n q tree

namespace Extractor

theorem allows_iff_permits (x : Extractor) (p : Path) (s : Session) :
    (x.allows p s).1 = true ↔ x.Permits p := by
  by_cases h : x.Permits p
  · simp [allows_of_permits h, h]
  · simp [allows_of_not_permits h, h]

theorem allowedOf_spec (x : Extractor) (paths : List Path) (s : Session) :
    (x.allowedOf paths s).1.Sublist paths ∧ ∀ p, p ∈ (x.allowedOf paths s).1 ↔ p ∈ paths ∧
      x.Permits p := by
  induction paths generalizing s with
  | nil => simp [allowedOf]
  | cons q paths ih =>
    obtain ⟨hsublist, hmem⟩ := ih (x.allows q s).2
    have hallows := x.allows_iff_permits q s
    simp only [allowedOf]
    split
    · rename_i hallowed
      refine ⟨hsublist.cons_cons q, fun p => ?_⟩
      rw [List.mem_cons, List.mem_cons, hmem]
      constructor
      · rintro (rfl | ⟨hp, hpermits⟩)
        · exact ⟨.inl rfl, hallows.mp hallowed⟩
        · exact ⟨.inr hp, hpermits⟩
      · rintro ⟨rfl | hp, hpermits⟩
        · exact .inl rfl
        · exact .inr ⟨hp, hpermits⟩
    · rename_i hvetoed
      refine ⟨hsublist.cons q, fun p => ?_⟩
      rw [List.mem_cons, hmem]
      constructor
      · rintro ⟨hp, hpermits⟩
        exact ⟨.inr hp, hpermits⟩
      · rintro ⟨rfl | hp, hpermits⟩
        · exact absurd (hallows.mpr hpermits) hvetoed
        · exact ⟨hp, hpermits⟩

theorem name_mem_neededIds {paths : List Path} {p : Path} {l : Language} (hp : p ∈ paths)
    (hl : Language.forPath? p = some l) (hgrammar : l.byHeadings = false) :
    l.name ∈ neededIds paths := by
  refine List.mem_map.mpr ⟨l, List.mem_filterMap.mpr ⟨p, hp, ?_⟩, rfl⟩
  simp [hl, hgrammar]

theorem exists_of_mem_neededIds {paths : List Path} {id : String} (hid : id ∈ neededIds paths) :
    ∃ p ∈ paths, ∃ l, Language.forPath? p = some l ∧ l.byHeadings = false ∧ l.name = id := by
  obtain ⟨l, hl, rfl⟩ := List.mem_map.mp hid
  obtain ⟨p, hp, hfound⟩ := List.mem_filterMap.mp hl
  obtain ⟨hlanguage, hgrammar⟩ := Option.filter_eq_some_iff.mp hfound
  exact ⟨p, hp, l, hlanguage, by simpa using hgrammar, rfl⟩

theorem assignment_of_answer {report : Registry.LoadReport} {p : Path} {l : Language}
    {answer : Answer} (hl : Language.forPath? p = some l) (hgrammar : l.byHeadings = false)
    (h : report.answer? l.name = some answer) :
    assignment report p = answer.map fun g => (l, some g) := by
  unfold Registry.LoadReport.answer? at h
  unfold assignment
  rw [hl]
  simp only [hgrammar, Bool.false_eq_true, if_false]
  cases hfailure : report.failures.lookup l.name with
  | some e =>
    rw [hfailure] at h
    cases h
    rfl
  | none =>
    rw [hfailure] at h
    cases hloaded : report.loaded.lookup l.name with
    | some g =>
      rw [hloaded] at h
      cases h
      rfl
    | none =>
      rw [hloaded] at h
      cases h

variable {x : Extractor} {d : Disk} {p : Path} {s : Session}

theorem fst_outlineWith_of_eq {t : Session} (hparses : s.parses = t.parses)
    (hsearches : s.searches = t.searches) (l : Language) (g : Option LoadedGrammar) :
    (x.outlineWith d p l g s).1 = (x.outlineWith d p l g t).1 := by
  refine fst_outlineWith_congr (fun g content => ?_) d g
  rw [fst_grammarCaptures, fst_grammarCaptures, hparses, hsearches]

/-- A report that answers for the language of a file as a call alone would makes for the same
outcome, also in a session with another ledger. -/
theorem outlineIn_eq_outlineFile (hpermits : x.Permits p) {report : Registry.LoadReport}
    {t : Session} (hparses : t.parses = s.parses) (hsearches : t.searches = s.searches)
    (hreport : ∀ l, Language.forPath? p = some l → l.byHeadings = false →
      report.answer? l.name = some (s.ledger.load x.registry l.name).1) :
    some (x.outlineIn d report p t).1 = (x.outlineFile d p s).1 := by
  rw [outlineFile_of_permits hpermits]
  unfold outlineIn
  cases hl : Language.forPath? p with
  | none => simp [assignment, hl, fst_fail]
  | some l =>
    cases hgrammar : l.byHeadings with
    | true => simp [assignment, hl, hgrammar, fst_outlineWith_of_eq hparses hsearches]
    | false =>
      have hanswer := (x.registry.ledger_loadGrammar l.name s).1
      obtain ⟨hparses', hsearches'⟩ := x.registry.parses_loadGrammar l.name s
      rw [assignment_of_answer hl hgrammar (hreport l hl hgrammar), ← hanswer]
      simp only [hgrammar, Bool.false_eq_true, if_false]
      generalize x.registry.loadGrammar l.name s = result at hparses' hsearches' ⊢
      obtain ⟨answer, after⟩ := result
      cases answer with
      | error e => rfl
      | ok g =>
        exact congrArg some
          (fst_outlineWith_of_eq (hparses.trans hparses'.symm) (hsearches.trans hsearches'.symm) l
            (some g))

theorem Steady.outlineWith (hx : x.Steady) (l : Language) (g : Option LoadedGrammar)
    (s t : Session) : (x.outlineWith d p l g s).1 = (x.outlineWith d p l g t).1 := by
  refine fst_outlineWith_congr (fun g content => ?_) d g
  rw [fst_grammarCaptures, fst_grammarCaptures,
    hx.parse _ (s.parses.count g.language) (t.parses.count g.language)]
  congr 1
  funext parsed
  rw [hx.search _ (s.searches.count l.name) (t.searches.count l.name)]

theorem Steady.outlineFile (hx : x.Steady) {t : Session} (hledger : t.ledger = s.ledger) :
    (x.outlineFile d p t).1 = (x.outlineFile d p s).1 := by
  by_cases hpermits : x.Permits p
  · rw [outlineFile_of_permits hpermits, outlineFile_of_permits hpermits]
    cases Language.forPath? p with
    | none => rfl
    | some l =>
      have hanswers : (x.registry.loadGrammar l.name t).1 =
          (x.registry.loadGrammar l.name s).1 := by
        rw [(x.registry.ledger_loadGrammar l.name t).1, (x.registry.ledger_loadGrammar l.name s).1,
          hledger]
      dsimp only
      split
      · rw [hx.outlineWith l none t s]
      · generalize x.registry.loadGrammar l.name t = ours at hanswers ⊢
        generalize x.registry.loadGrammar l.name s = theirs at hanswers ⊢
        obtain ⟨answer, after⟩ := ours
        obtain ⟨answer', after'⟩ := theirs
        cases hanswers
        cases answer with
        | error e => rfl
        | ok g => exact congrArg some (hx.outlineWith l (some g) after after')
  · rw [outlineFile_of_not_permits hpermits, outlineFile_of_not_permits hpermits]

/-- The registry holds the language of every path that may be read, where it has a grammar. -/
def Covers (x : Extractor) (paths : List Path) : Prop :=
  ∀ p ∈ paths, x.Permits p → ∀ l, Language.forPath? p = some l → l.byHeadings = false →
    x.registry.Holds l.name

theorem mem_table_of_forPath? {l : Language} (h : Language.forPath? p = some l) :
    l ∈ Language.table := by
  unfold Language.forPath? at h
  rcases Option.or_eq_some_iff.mp h with h | ⟨-, h⟩
  · split at h
    · cases h
    · exact List.mem_of_find?_eq_some h
  · exact List.mem_of_find?_eq_some h

theorem lookup_name {languages : List Language} (hnames : (languages.map (·.name)).Nodup)
    {l : Language} (hl : l ∈ languages) :
    (languages.map fun l => (l.name, l)).lookup l.name = some l := by
  induction languages with
  | nil => cases hl
  | cons m languages ih =>
    obtain ⟨hnew, hrest⟩ := List.nodup_cons.mp hnames
    rcases List.mem_cons.mp hl with rfl | hl
    · simp
    · have hne : l.name ≠ m.name := fun heq => hnew (List.mem_map.mpr ⟨l, hl, heq⟩)
      rw [List.map_cons, lookup_cons_of_ne hne]
      exact ih hrest hl

theorem table_names_nodup : (Language.table.map (·.name)).Nodup := by decide +kernel

theorem grammarLanguage?_name (h : x.registry.languages = Language.byName) {l : Language}
    (hl : l ∈ Language.table) (hgrammar : l.byHeadings = false) :
    x.registry.grammarLanguage? l.name = some l := by
  have hlookup : Language.byName.lookup l.name = some l := lookup_name table_names_nodup hl
  simp [Registry.grammarLanguage?, h, hlookup, hgrammar]

theorem covers_of_byName (h : x.registry.languages = Language.byName) (paths : List Path) :
    x.Covers paths := by
  intro p _ _ l hl hgrammar
  exact ⟨l, grammarLanguage?_name h (mem_table_of_forPath? hl) hgrammar, rfl⟩

def admitted (x : Extractor) (paths : List Path) (s : Session) : List Path :=
  (x.allowedOf paths.eraseDups { s with batch := s.batch.set none }).1

theorem mem_admitted {paths : List Path} : p ∈ x.admitted paths s ↔ p ∈ paths ∧ x.Permits p := by
  unfold admitted
  rw [(x.allowedOf_spec _ _).2, List.mem_eraseDups]

theorem admitted_pairwise (x : Extractor) (paths : List Path) (s : Session) :
    (x.admitted paths s).Pairwise (fun p q => paths.idxOf p < paths.idxOf q) :=
  (pairwise_idxOf_eraseDups paths).sublist (x.allowedOf_spec _ _).1

/-- A batch: the admitted paths, each with an outcome by what is reported of the grammars that these
paths need. -/
theorem outlineTogether_report (x : Extractor) (d : Disk) (requested : Option Int)
    (schedule : List Nat) (paths : List Path) (s : Session) :
    ∃ after : Session, after.ledger = s.ledger ∧
      (x.outlineTogether d requested schedule paths s).1.map (·.1) = x.admitted paths s ∧
      ∀ p o, (p, o) ∈ (x.outlineTogether d requested schedule paths s).1 →
        ∃ t, o =
          (x.outlineIn d (x.registry.loadAll (neededIds (x.admitted paths s)) after).1 p t).1 := by
  -- Neither the batch id nor the events of the access checks reach the ledger.
  have hledger := x.ledger_allowedOf paths.eraseDups { s with batch := s.batch.set none }
  refine ⟨(x.allowedOf paths.eraseDups { s with batch := s.batch.set none }).2, hledger, ?_⟩
  unfold admitted outlineTogether outlineAll
  dsimp only
  generalize x.allowedOf paths.eraseDups { s with batch := s.batch.set none } = result
  obtain ⟨allowed, after⟩ := result
  exact x.outlineFiles_spec d (x.registry.loadAll (neededIds allowed) after).1
    (x.workerCount requested allowed.length) schedule allowed
      (x.registry.loadAll (neededIds allowed) after).2

/-- Where the registry holds what is needed, each outcome is one that a single call gives in a
session with the ledger of the start. -/
theorem outlineTogether_spec {paths : List Path} (hcovers : x.Covers paths) (d : Disk) (s : Session)
    (requested : Option Int) (schedule : List Nat) :
    (x.outlineTogether d requested schedule paths s).1.map (·.1) = x.admitted paths s ∧
      ∀ p o, (p, o) ∈ (x.outlineTogether d requested schedule paths s).1 →
        ∃ t : Session, t.ledger = s.ledger ∧ (x.outlineFile d p t).1 = some o := by
  obtain ⟨after, hstart, hkeys, hends⟩ := x.outlineTogether_report d requested schedule paths s
  have hholds : ∀ id ∈ neededIds (x.admitted paths s), x.registry.Holds id := by
    intro id hid
    obtain ⟨p, hp, l, hl, hgrammar, rfl⟩ := exists_of_mem_neededIds hid
    obtain ⟨hmem, hpermits⟩ := mem_admitted.mp hp
    exact hcovers p hmem hpermits l hl hgrammar
  refine ⟨hkeys, fun p o hentry => ?_⟩
  have hp : p ∈ x.admitted paths s := by
    rw [← hkeys]
    exact List.mem_map.mpr ⟨(p, o), hentry, rfl⟩
  obtain ⟨t, rfl⟩ := hends p o hentry
  refine ⟨{ s with parses := t.parses, searches := t.searches }, rfl, ?_⟩
  symm
  refine outlineIn_eq_outlineFile (t := t) (mem_admitted.mp hp).2 rfl rfl fun l hl hgrammar => ?_
  have hneeded := name_mem_neededIds hp hl hgrammar
  rw [Registry.answer?_loadAll (fun a ha b hb => (hholds a ha).apart (hholds b hb)) after hneeded
    (hholds _ hneeded).isSome, hstart]
  rfl

/-- The outcomes of a batch, in one line: for each admitted path, what a single call gives for
it. -/
theorem outlineTogether_eq (hx : x.Steady) {paths : List Path} (hcovers : x.Covers paths)
    (requested : Option Int) (schedule : List Nat) :
    ∃ outcomeOf : Path → Outcome,
      (x.outlineTogether d requested schedule paths s).1 = (x.admitted paths s).map
        (fun p => (p, outcomeOf p)) ∧
      ∀ p ∈ x.admitted paths s, (x.outlineFile d p s).1 = some (outcomeOf p) := by
  obtain ⟨hkeys, hends⟩ := outlineTogether_spec hcovers d s requested schedule
  have hsingle : ∀ p o, (p, o) ∈ (x.outlineTogether d requested schedule paths s).1 →
      (x.outlineFile d p s).1 = some o := by
    intro p o hentry
    obtain ⟨t, hledger, houtcome⟩ := hends p o hentry
    exact (hx.outlineFile hledger).symm.trans houtcome
  refine ⟨fun p => ((x.outlineFile d p s).1).getD (.error (.unsupportedLanguage p.toString)), ?_,
    ?_⟩
  · rw [← hkeys, List.map_map]
    refine ((List.map_id _).symm.trans (List.map_congr_left fun entry hentry => ?_))
    simp [hsingle entry.1 entry.2 hentry]
  · intro p hp
    obtain ⟨⟨q, o⟩, hentry, rfl⟩ := List.mem_map.mp (hkeys ▸ hp)
    simp [hsingle q o hentry]

/-- A batch and its files one by one agree: with any number of workers and in any order of their
work, the paths that may be read come once each, in the order of their first occurrence, each with
the outcome of a call for it alone. -/
theorem batch_agrees_with_single_files (x : Extractor) (d : Disk) (texts : List String)
    (s : Session) (requested : Option Int) (schedule : List Nat) (hx : x.Steady)
    (hcovers : x.Covers (texts.map Path.ofString)) :
    let paths := texts.map Path.ofString
    let outcomes := (x.outlineTogether d requested schedule paths s).1
    (∀ p, p ∈ outcomes.map (·.1) ↔ p ∈ paths ∧ x.Permits p) ∧
      (outcomes.map (·.1)).Pairwise (fun p q => paths.idxOf p < paths.idxOf q) ∧
      ∀ p o, (p, o) ∈ outcomes → (x.outlineFile d p s).1 = some o := by
  obtain ⟨outcomeOf, houtcomes, hsingle⟩ :=
    outlineTogether_eq (d := d) (s := s) hx hcovers requested schedule
  have hkeys : ((x.outlineTogether d requested schedule (texts.map Path.ofString) s).1).map (·.1) =
      x.admitted (texts.map Path.ofString) s := by
    rw [houtcomes, List.map_map]
    exact List.map_id _
  refine ⟨fun p => ?_, ?_, fun p o hp => ?_⟩
  · rw [hkeys, mem_admitted]
  · rw [hkeys]
    exact x.admitted_pairwise _ s
  · rw [houtcomes] at hp
    obtain ⟨q, hq, heq⟩ := List.mem_map.mp hp
    cases heq
    exact hsingle p hq

/-- An extractor that keeps one file to itself and fails to load one grammar at first. -/
def reluctant : Extractor where
  registry :=
    { languages := Language.byName
      load := fun l n => if l.name == "go" && n == 0 then .error ⟨"ImportError", "no module"⟩
        else .ok ()
      compile := fun _ _ => .ok [] }
  parse := fun _ _ _ => .ok none
  search := fun _ _ _ _ => .ok []
  access := some fun p => .ok (p.name != "secret.py")
  lineTest := InlineMarkup.test
  limits := ⟨1, 4, by decide, by decide⟩

/-- One file twice, one that is kept secret, and two workers that take turns. -/
theorem batch_agrees_reluctant :
    let texts := ["b.go", "a.md", "./b.go", "secret.py"]
    let outcomes :=
      (reluctant.outlineTogether (.empty []) (some 2) [1, 0, 0, 1]
        (texts.map Path.ofString) .start).1
    reluctant.Steady ∧ reluctant.Covers (texts.map Path.ofString) ∧
      Path.ofString "b.go" ∈ outcomes.map (·.1) ∧
      Path.ofString "secret.py" ∉ outcomes.map (·.1) ∧
      ∀ p o, (p, o) ∈ outcomes → (reluctant.outlineFile (.empty []) p .start).1 = some o := by
  intro texts outcomes
  have hsteady : reluctant.Steady := ⟨fun _ _ _ _ => rfl, fun _ _ _ _ _ => rfl⟩
  have hcovers : reluctant.Covers (texts.map Path.ofString) := covers_of_byName rfl _
  obtain ⟨hkeys, -, hsingle⟩ :=
    batch_agrees_with_single_files reluctant (.empty []) texts .start (some 2) [1, 0, 0, 1]
    hsteady hcovers
  refine ⟨hsteady, hcovers, (hkeys _).mpr ⟨by decide, ?_⟩, fun hsecret => ?_, hsingle⟩
  · rintro check hcheck
    cases hcheck
    decide +kernel
  · have hpermits := ((hkeys _).mp hsecret).2 _ rfl
    revert hpermits
    decide +kernel

end Extractor

end SourceOutline
