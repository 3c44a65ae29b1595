import SourceOutline.Proofs.Extraction.File
import SourceOutline.Proofs.Outline.Listing

/-! The first failure decides. Each stage on the way to an outline is described by itself: from the
component that does its work and from what the stages before hand to it, and by the one error that
its failure is reported as. Several stages may be about to fail for one file; its outcome is the
error of the first of them, and without any it is an outline. -/
namespace SourceOutline

/-- What can fail for a file, from its language to the listing of its definitions. -/
inductive Stage where
  | language
  | loader
  | compiler
  | read
  | parser
  | cursor
  | synthesis
deriving DecidableEq, Repr

def Stage.all : List Stage := [.language, .loader, .compiler, .read, .parser, .cursor, .synthesis]

def reported {ε α : Type} (report : ε → OutlineError) : Except ε α → Option OutlineError
  | .error e => some (report e)
  | .ok _ => none

/-- The error as which a failure to read is reported: any error of the system by its reason, or by
its text if it has none, and any other fault by its description. -/
def readReport (p : Path) : ReadError → OutlineError
  | .disk e => .read p.toString e.reason
  | .system e => .read p.toString e.shown
  | .fault f => .unexpected p.toString f.describe

namespace Extractor

def needed? (p : Path) : Option Language := (Language.forPath? p).filter (!·.byHeadings)

/-- The language that has to be loaded for a path; none when its grammar is there. -/
def toLoad? (x : Extractor) (p : Path) (s : Session) : Option Language := do
  let l ← needed? p
  if s.isLoaded l.name then none else x.registry.grammarLanguage? l.name

/-- The grammar for a path: the one that is there, or the one that loading gives. -/
def grammarFor? (x : Extractor) (p : Path) (s : Session) : Option LoadedGrammar :=
  ((needed? p).bind fun l => s.loaded.lookup l.name).or ((x.toLoad? p s).bind fun l =>
    (x.registry.compile l (s.compiles.count l.name)).toOption.map fun q => ⟨l.name, l.query, q⟩)

def treeFor? (x : Extractor) (d : Disk) (p : Path) (s : Session) : Option SyntaxTree := do
  let g ← x.grammarFor? p s
  let content ← (d.read p).toOption
  (x.parse g.language (s.parses.count g.language) content).toOption.join

def foundFor? (x : Extractor) (d : Disk) (p : Path) (s : Session) : Option (List Capture) := do
  let l ← needed? p
  let g ← x.grammarFor? p s
  let tree ← x.treeFor? d p s
  (x.search l.name (s.searches.count l.name) g.query tree).toOption.map capturesOf

/-- The captures for a path, through its grammar or from its headings. -/
def capturesFor? (x : Extractor) (d : Disk) (p : Path) (s : Session) : Option (List Capture) :=
  if (needed? p).isSome then x.foundFor? d p s
  else (d.read p).toOption.map fun content => Markdown.captures (Text.Utf8.decode content)

/-- The failure of one stage, given that those before it leave something to work on. -/
def failureAt (x : Extractor) (d : Disk) (p : Path) (s : Session) : Stage → Option OutlineError
  | .language =>
    match Language.forPath? p with
    | none => some (.unsupportedLanguage p.toString)
    | some l =>
      if l.byHeadings || s.isLoaded l.name || (x.registry.grammarLanguage? l.name).isSome then none
      else some (.unsupportedLanguage l.name)
  | .loader => (x.toLoad? p s).bind fun l =>
    reported (fun f => .grammarLoad l.name f.describe) (x.registry.load l (s.loads.count l.name))
  | .compiler => (x.toLoad? p s).bind fun l =>
    reported (fun f => .query l.name f.text) (x.registry.compile l (s.compiles.count l.name))
  | .read => reported (readReport p) (d.read p)
  | .parser => do
    let g ← x.grammarFor? p s
    let content ← (d.read p).toOption
    match x.parse g.language (s.parses.count g.language) content with
    | .error f => some (.parse g.language f.text)
    | .ok none => some (.parse g.language "parser returned no tree")
    | .ok (some _) => none
  | .cursor => do
    let l ← needed? p
    let g ← x.grammarFor? p s
    let tree ← x.treeFor? d p s
    reported (fun f => .query l.name f.text)
      (x.search l.name (s.searches.count l.name) g.query tree)
  | .synthesis => do
    let content ← (d.read p).toOption
    let captures ← x.capturesFor? d p s
    reported (fun e => e.trouble.errorOn p)
      (synthesize captures (Text.lines (Text.Utf8.decode content)) x.limits.minLines x.lineTest)

def loadFailure? (x : Extractor) (d : Disk) (p : Path) (s : Session) : Option OutlineError :=
  [Stage.language, .loader, .compiler].findSome? (x.failureAt d p s)

def workFailure? (x : Extractor) (d : Disk) (p : Path) (s : Session) : Option OutlineError :=
  [Stage.read, .parser, .cursor, .synthesis].findSome? (x.failureAt d p s)

theorem findSome?_failureAt (x : Extractor) (d : Disk) (p : Path) (s : Session) :
    Stage.all.findSome? (x.failureAt d p s) = (x.loadFailure? d p s).or (x.workFailure? d p s) := by
  unfold loadFailure? workFailure?
  rw [← List.findSome?_append]
  rfl

variable {x : Extractor} {d : Disk} {p : Path} {s : Session} {l : Language}

theorem loadGrammar_decided (hl : Language.forPath? p = some l) (hgrammar : l.byHeadings = false) :
    match (x.registry.loadGrammar l.name s).1 with
    | .error e => x.loadFailure? d p s = some e
    | .ok g => x.loadFailure? d p s = none ∧ x.grammarFor? p s = some g := by
  have hneeded : needed? p = some l := by simp [needed?, hl, hgrammar]
  unfold Registry.loadGrammar
  -- A grammar that is kept makes loader and compiler idle, whatever they would answer.
  cases hkept : s.loaded.lookup l.name with
  | some g =>
    have hload : x.toLoad? p s = none := by simp [toLoad?, hneeded, Session.isLoaded, hkept]
    simp [loadFailure?, failureAt, hl, hload, Session.isLoaded, hkept, grammarFor?, hneeded]
  | none =>
    have hload : x.toLoad? p s = x.registry.grammarLanguage? l.name := by
      simp [toLoad?, hneeded, Session.isLoaded, hkept]
    cases hlanguage : x.registry.grammarLanguage? l.name with
    | none =>
      simp [loadFailure?, failureAt, hl, hgrammar, Session.isLoaded, hkept, hlanguage]
    | some m =>
      rw [hlanguage] at hload
      have hpresent : x.failureAt d p s .language = none := by simp [failureAt, hl, hlanguage]
      have hloading : x.failureAt d p s .loader =
          reported (fun f => .grammarLoad m.name f.describe)
            (x.registry.load m (s.loads.count m.name)) := by
        simp [failureAt, hload]
      have hcompiling : x.failureAt d p s .compiler =
          reported (fun f => .query m.name f.text)
            (x.registry.compile m (s.compiles.count m.name)) := by
        simp [failureAt, hload]
      simp only [Registry.loadAnew, loadFailure?, List.findSome?_cons, hpresent,
        hloading, hcompiling]
      cases hloader : x.registry.load m (s.loads.count m.name) with
      | error f => rfl
      | ok _ =>
        cases hcompile : x.registry.compile m (s.compiles.count m.name) with
        | error f => rfl
        | ok q =>
          exact ⟨rfl, by simp [grammarFor?, hneeded, hkept, hload, hcompile, Except.toOption]⟩

/-- The grammar that the work on a file goes by: none for headings, otherwise the one for its
path. -/
def Equipped (x : Extractor) (p : Path) (s : Session) (l : Language) (g : Option LoadedGrammar) :
    Prop :=
  if l.byHeadings then g = none else ∃ grammar, g = some grammar ∧ x.grammarFor? p s = some grammar

theorem capturesIn_decided (hl : Language.forPath? p = some l) {g : Option LoadedGrammar}
    (hg : x.Equipped p s l g) {content : Text.Utf8.Bytes} (hread : d.read p = .ok content)
    {after : Session} (hparses : after.parses = s.parses)
    (hsearches : after.searches = s.searches) :
    match (x.capturesIn p l g content after).1 with
    | .error e => [Stage.parser, .cursor].findSome? (x.failureAt d p s) = some e
    | .ok captures =>
      [Stage.parser, .cursor].findSome? (x.failureAt d p s) = none ∧
        x.capturesFor? d p s = some captures := by
  unfold Equipped at hg
  cases hheadings : l.byHeadings with
  | true =>
    rw [if_pos hheadings] at hg
    subst hg
    have hneeded : needed? p = none := by simp [needed?, hl, hheadings]
    have hgrammar : x.grammarFor? p s = none := by simp [grammarFor?, toLoad?, hneeded]
    simp [capturesIn, hheadings, failureAt, hneeded, hgrammar, capturesFor?, hread, Except.toOption]
  | false =>
    rw [if_neg (by simp [hheadings])] at hg
    obtain ⟨grammar, rfl, hgrammar⟩ := hg
    have hneeded : needed? p = some l := by simp [needed?, hl, hheadings]
    have hcursor : x.failureAt d p s .cursor = (x.treeFor? d p s).bind fun tree =>
        reported (fun f => .query l.name f.text)
          (x.search l.name (s.searches.count l.name) grammar.query tree) := by
      simp [failureAt, hneeded, hgrammar]
    have hcaptures : x.capturesFor? d p s = (x.treeFor? d p s).bind fun tree =>
        (x.search l.name (s.searches.count l.name) grammar.query tree).toOption.map capturesOf := by
      simp [capturesFor?, foundFor?, hneeded, hgrammar]
    simp only [capturesIn, hheadings, fst_grammarCaptures, hparses, hsearches, List.findSome?_cons,
      hcursor, hcaptures]
    cases hparse : x.parse grammar.language (s.parses.count grammar.language) content with
    | error f =>
      have hparser : x.failureAt d p s .parser = some (.parse grammar.language f.text) := by
        simp [failureAt, hgrammar, hread, Except.toOption, hparse]
      simp [hparser, Parsed.ofOutcome, Except.bind]
    | ok answer =>
      cases answer with
      | none =>
        have hparser : x.failureAt d p s .parser =
            some (.parse grammar.language "parser returned no tree") := by
          simp [failureAt, hgrammar, hread, Except.toOption, hparse]
        simp [hparser, Parsed.ofOutcome, Except.bind]
      | some tree =>
        have hparser : x.failureAt d p s .parser = none := by
          simp [failureAt, hgrammar, hread, Except.toOption, hparse]
        have htree : x.treeFor? d p s = some tree := by
          simp [treeFor?, hgrammar, hread, Except.toOption, hparse]
        rw [hparser, htree]
        cases hsearch : x.search l.name (s.searches.count l.name) grammar.query tree with
        | error f => simp [Parsed.ofOutcome, Except.bind, capturesOfOutcome, hsearch, reported]
        | ok found =>
          simp [Parsed.ofOutcome, Except.bind, capturesOfOutcome, hsearch,
            reported, Except.toOption]

theorem workFailure?_eq (x : Extractor) (d : Disk) (p : Path) (s : Session) :
    x.workFailure? d p s = (x.failureAt d p s .read).or
      (([Stage.parser, .cursor].findSome? (x.failureAt d p s)).or
        (x.failureAt d p s .synthesis)) := by
  have hsplit : [Stage.read, .parser, .cursor, .synthesis] =
      [.read] ++ ([.parser, .cursor] ++ [.synthesis]) := rfl
  unfold workFailure?
  rw [hsplit, List.findSome?_append, List.findSome?_append, List.findSome?_singleton,
    List.findSome?_singleton]

/-- What the file's captures and lines come to. -/
def Synthesized (x : Extractor) (d : Disk) (p : Path) (s : Session)
    (ds : Option (List Definition)) : Prop :=
  ∃ content captures, d.read p = .ok content ∧ x.capturesFor? d p s = some captures ∧
    synthesize captures (Text.lines (Text.Utf8.decode content)) x.limits.minLines
      x.lineTest = .ok ds

theorem definitionsIn_decided (hl : Language.forPath? p = some l) {g : Option LoadedGrammar}
    (hg : x.Equipped p s l g) {after : Session} (hparses : after.parses = s.parses)
    (hsearches : after.searches = s.searches) :
    match (x.definitionsIn d p l g after).1 with
    | .error trouble => x.workFailure? d p s = some (trouble.errorOn p)
    | .ok ds => x.workFailure? d p s = none ∧ x.Synthesized d p s ds := by
  rw [workFailure?_eq]
  unfold definitionsIn
  cases hread : d.read p with
  | error e =>
    have hfailure : x.failureAt d p s .read = some ((Trouble.ofRead p e).errorOn p) := by
      cases e <;> simp [failureAt, hread, reported, readReport, Trouble.ofRead, Trouble.errorOn]
    simp [hfailure]
  | ok content =>
    have hfailure : x.failureAt d p s .read = none := by simp [failureAt, hread, reported]
    have hcaptures := capturesIn_decided hl hg hread hparses hsearches
    dsimp only
    generalize x.capturesIn p l g content after = result at hcaptures
    obtain ⟨answer, later⟩ := result
    cases answer with
    | error e =>
      dsimp only at hcaptures
      simp [hfailure, hcaptures, definitionsOf, Trouble.errorOn]
    | ok captures =>
      obtain ⟨hnone, hcaptures⟩ := hcaptures
      have hsynthesis : x.failureAt d p s .synthesis = reported (fun e => e.trouble.errorOn p)
          (synthesize captures (Text.lines (Text.Utf8.decode content)) x.limits.minLines
            x.lineTest) := by
        simp [failureAt, hread, Except.toOption, hcaptures]
      rw [hfailure, hnone, hsynthesis, Option.none_or, Option.none_or]
      dsimp only [definitionsOf]
      cases hresult : synthesize captures (Text.lines (Text.Utf8.decode content))
        x.limits.minLines x.lineTest with
      | error e => rfl
      | ok ds => exact ⟨rfl, content, captures, hread, hcaptures, hresult⟩

/-- An outcome is what a failure makes of it: its error, or without one the outline that is
synthesized. -/
def Decides (x : Extractor) (d : Disk) (p : Path) (s : Session) (failure : Option OutlineError) :
    Outcome → Prop
  | .error e => failure = some e
  | .ok o => failure = none ∧ o.path = p ∧ (Language.forPath? p).map (·.name) = some o.language ∧
      x.Synthesized d p s o.definitions

theorem outlineWith_decided (hl : Language.forPath? p = some l) {g : Option LoadedGrammar}
    (hg : x.Equipped p s l g) {after : Session} (hparses : after.parses = s.parses)
    (hsearches : after.searches = s.searches) :
    x.Decides d p s (x.workFailure? d p s) (x.outlineWith d p l g after).1 := by
  have hdefinitions := definitionsIn_decided (d := d) hl hg hparses hsearches
  rw [fst_outlineWith]
  cases hresult : (x.definitionsIn d p l g after).1 with
  | error trouble =>
    rw [hresult] at hdefinitions
    exact hdefinitions
  | ok ds =>
    rw [hresult] at hdefinitions
    exact ⟨hdefinitions.1, rfl, by rw [hl]; rfl, hdefinitions.2⟩

def Raises (x : Extractor) (e : OutlineError) : Prop := ∃ line, x.lineTest line = .error (.known e)

/-- The name under which a stage's failure is reported. Reading has two: one for errors of the
system, one for all else. -/
def kindAt (d : Disk) (p : Path) : Stage → String
  | .language => "UNSUPPORTED_LANGUAGE"
  | .loader => "GRAMMAR_LOAD_FAILURE"
  | .compiler => "QUERY_EXECUTION_FAILURE"
  | .read =>
    match d.read p with
    | .error (.fault _) => "INTERNAL_ERROR"
    | _ => "IO_FAILURE"
  | .parser => "PARSE_FAILURE"
  | .cursor => "QUERY_EXECUTION_FAILURE"
  | .synthesis => "INTERNAL_ERROR"

theorem reported_eq_some {ε α : Type} {report : ε → OutlineError} {result : Except ε α}
    {e : OutlineError} (h : reported report result = some e) :
    ∃ cause, result = .error cause ∧ report cause = e := by
  cases result with
  | ok _ => cases h
  | error cause => exact ⟨cause, rfl, Option.some.inj h⟩

theorem cause_of_synthesis {e : OutlineError} (h : x.failureAt d p s .synthesis = some e) :
    x.Raises e ∨ ∃ fault : Fault, e = .unexpected p.toString fault.describe ∧
      ((∃ line, x.lineTest line = .error (.crash fault)) ∨
        (fault = .badIndex ∧ ∃ captures, x.capturesFor? d p s = some captures ∧
          ∃ c ∈ captures, c.span.first < 0)) := by
  obtain ⟨content, -, h⟩ := Option.bind_eq_some_iff.mp h
  obtain ⟨captures, hcaptures, h⟩ := Option.bind_eq_some_iff.mp h
  obtain ⟨cause, hcause, rfl⟩ := reported_eq_some h
  obtain ⟨line, trouble, htest, rfl⟩ | ⟨rfl, c, hc, hbefore⟩ :=
    synthesize_error x.limits.minLines_pos hcause
  · cases trouble with
    | known e => exact .inl ⟨line, htest⟩
    | crash fault => exact .inr ⟨fault, rfl, .inl ⟨line, htest⟩⟩
  · exact .inr ⟨.badIndex, rfl, .inr ⟨rfl, captures, hcaptures, c, hc, by omega⟩⟩

theorem name_of_failureAt {stage : Stage} {e : OutlineError}
    (h : x.failureAt d p s stage = some e) :
    e.name = kindAt d p stage ∨ stage = .synthesis ∧ x.Raises e := by
  cases stage with
  | language =>
    simp only [failureAt] at h
    split at h
    · cases h
      exact .inl rfl
    · split at h <;> cases h
      exact .inl rfl
  | loader =>
    obtain ⟨m, -, h⟩ := Option.bind_eq_some_iff.mp h
    obtain ⟨f, -, rfl⟩ := reported_eq_some h
    exact .inl rfl
  | compiler =>
    obtain ⟨m, -, h⟩ := Option.bind_eq_some_iff.mp h
    obtain ⟨f, -, rfl⟩ := reported_eq_some h
    exact .inl rfl
  | read =>
    obtain ⟨cause, hread, rfl⟩ := reported_eq_some h
    unfold kindAt
    rw [hread]
    cases cause <;> exact .inl rfl
  | parser =>
    obtain ⟨g, -, h⟩ := Option.bind_eq_some_iff.mp h
    obtain ⟨content, -, h⟩ := Option.bind_eq_some_iff.mp h
    split at h <;> cases h <;> exact .inl rfl
  | cursor =>
    obtain ⟨m, -, h⟩ := Option.bind_eq_some_iff.mp h
    obtain ⟨g, -, h⟩ := Option.bind_eq_some_iff.mp h
    obtain ⟨tree, -, h⟩ := Option.bind_eq_some_iff.mp h
    obtain ⟨f, -, rfl⟩ := reported_eq_some h
    exact .inl rfl
  | synthesis =>
    obtain hraises | ⟨fault, rfl, -⟩ := cause_of_synthesis h
    · exact .inr ⟨rfl, hraises⟩
    · exact .inl rfl

theorem Synthesized.eq {ds ds' : Option (List Definition)} (h : x.Synthesized d p s ds)
    (h' : x.Synthesized d p s ds') : ds = ds' := by
  obtain ⟨content, captures, hread, hcaptures, hds⟩ := h
  obtain ⟨content', captures', hread', hcaptures', hds'⟩ := h'
  rw [hread] at hread'
  cases hread'
  rw [hcaptures] at hcaptures'
  cases hcaptures'
  rw [hds] at hds'
  exact Except.ok.inj hds'

theorem outcome_decided (hpermits : x.Permits p) :
    ∃ outcome, (x.outlineFile d p s).1 = some outcome ∧
      x.Decides d p s (Stage.all.findSome? (x.failureAt d p s)) outcome := by
  refine ⟨_, outlineFile_of_permits hpermits d s, ?_⟩
  rw [findSome?_failureAt]
  cases hl : Language.forPath? p with
  | none => simp [Decides, loadFailure?, failureAt, hl]
  | some l =>
    dsimp only
    cases hheadings : l.byHeadings with
    | true =>
      have hneeded : needed? p = none := by simp [needed?, hl, hheadings]
      have hload : x.loadFailure? d p s = none := by
        simp [loadFailure?, failureAt, hl, hheadings, toLoad?, hneeded]
      have hequipped : x.Equipped p s l none := by simp [Equipped, hheadings]
      rw [if_pos rfl, hload, Option.none_or]
      exact outlineWith_decided hl hequipped rfl rfl
    | false =>
      have hload := loadGrammar_decided (x := x) (d := d) (s := s) hl hheadings
      obtain ⟨hparses, hsearches⟩ := x.registry.parses_loadGrammar l.name s
      rw [if_neg (by simp)]
      generalize x.registry.loadGrammar l.name s = result at hload hparses hsearches
      obtain ⟨answer, after⟩ := result
      cases answer with
      | error e =>
        dsimp only at hload ⊢
        rw [hload]
        rfl
      | ok g =>
        obtain ⟨hload, hgrammar⟩ := hload
        have hequipped : x.Equipped p s l (some g) := by simp [Equipped, hheadings, hgrammar]
        dsimp only at hload ⊢
        rw [hload, Option.none_or]
        exact outlineWith_decided hl hequipped hparses hsearches

theorem outcome_error_iff (hpermits : x.Permits p) (e : OutlineError) :
    (x.outlineFile d p s).1 = some (.error e) ↔
      Stage.all.findSome? (x.failureAt d p s) = some e := by
  obtain ⟨outcome, houtcome, hdecided⟩ := outcome_decided (d := d) (s := s) hpermits
  rw [houtcome]
  cases outcome with
  | error e' =>
    rw [show Stage.all.findSome? (x.failureAt d p s) = some e' from hdecided]
    simp
  | ok o => simp [hdecided.1]

theorem outcome_ok_iff (hpermits : x.Permits p) (o : Outline) :
    (x.outlineFile d p s).1 = some (.ok o) ↔
      x.Decides d p s (Stage.all.findSome? (x.failureAt d p s)) (.ok o) := by
  obtain ⟨outcome, houtcome, hdecided⟩ := outcome_decided (d := d) (s := s) hpermits
  rw [houtcome]
  constructor
  · intro heq
    cases heq
    exact hdecided
  · rintro ⟨hnone, hpath, hlanguage, hdefinitions⟩
    cases outcome with
    | error e =>
      rw [show Stage.all.findSome? (x.failureAt d p s) = some e from hdecided] at hnone
      cases hnone
    | ok o' =>
      obtain ⟨-, hpath', hlanguage', hdefinitions'⟩ := hdecided
      obtain ⟨path, language, definitions⟩ := o
      obtain ⟨path', language', definitions'⟩ := o'
      dsimp only at hpath hpath' hlanguage hlanguage' hdefinitions hdefinitions'
      rw [hlanguage] at hlanguage'
      cases hlanguage'
      rw [hpath, hpath', hdefinitions.eq hdefinitions']

/-- The outcome of a file is decided by the first stage that fails. A path is passed over exactly
when it is not permitted; every other path ends with the error of its first failure, under the name
for that stage, or with its outline. Only a line test can raise an error under another name. -/
theorem first_failure_decides (x : Extractor) (d : Disk) (p : Path) (s : Session) :
    ((x.outlineFile d p s).1 = none ↔ ¬x.Permits p) ∧
      (∀ e, (x.outlineFile d p s).1 = some (.error e) ↔
        x.Permits p ∧ Stage.all.findSome? (x.failureAt d p s) = some e) ∧
      (∀ o, (x.outlineFile d p s).1 = some (.ok o) ↔
        x.Permits p ∧ Stage.all.findSome? (x.failureAt d p s) = none ∧ o.path = p ∧
          (Language.forPath? p).map (·.name) = some o.language ∧
            x.Synthesized d p s o.definitions) ∧
      (∀ stage e, x.failureAt d p s stage = some e →
        e.name = kindAt d p stage ∨ stage = .synthesis ∧ x.Raises e) ∧
      ∀ e, x.failureAt d p s .synthesis = some e →
        x.Raises e ∨ ∃ fault : Fault, e = .unexpected p.toString fault.describe ∧
          ((∃ line, x.lineTest line = .error (.crash fault)) ∨
            (fault = .badIndex ∧ ∃ captures, x.capturesFor? d p s = some captures ∧
              ∃ c ∈ captures, c.span.first < 0)) := by
  by_cases hpermits : x.Permits p
  · obtain ⟨outcome, houtcome, -⟩ := outcome_decided (d := d) (s := s) hpermits
    refine ⟨by simp [houtcome, hpermits], fun e => ?_, fun o => ?_,
      fun _ _ h => name_of_failureAt h,
      fun _ h => cause_of_synthesis h⟩
    · rw [outcome_error_iff hpermits]
      simp [hpermits]
    · rw [outcome_ok_iff hpermits]
      simp [hpermits, Decides]
  · have houtcome := outlineFile_of_not_permits hpermits d s
    refine ⟨by simp [houtcome, hpermits], fun e => ?_, fun o => ?_,
      fun _ _ h => name_of_failureAt h,
      fun _ h => cause_of_synthesis h⟩
    · simp [houtcome, hpermits]
    · simp [houtcome, hpermits]

end Extractor

end SourceOutline
