import SourceOutline.Extraction.Batch
import SourceOutline.Proofs.Extraction.File
import SourceOutline.Proofs.Grammar.Ledger

/-! What work on files leaves alone. Only loading changes the ledger: reading, parsing, searching
and listing count their calls and write to the log, so the grammars of a batch are the same from its
first file to its last. -/
namespace SourceOutline

@[simp] theorem Session.ledger_emit (s : Session) (name : String) (level : Level)
    (fields : List (String × Value)) : (s.emit name level fields).ledger = s.ledger := rfl

namespace Extractor

section Frame

variable (x : Extractor) (d : Disk) (report : Registry.LoadReport) (p : Path) (l : Language)
  (s : Session)

@[simp] theorem ledger_allows : (x.allows p s).2.ledger = s.ledger := by
  unfold allows
  split
  · rfl
  · split <;> rfl

@[simp] theorem ledger_fail (e : OutlineError) : (fail p e s).2.ledger = s.ledger := by
  unfold fail
  cases e.code <;> rfl

@[simp] theorem ledger_settle (result : Except Trouble (Option (List Definition))) :
    (settle p l result s).2.ledger = s.ledger := by
  cases result with
  | ok ds => rfl
  | error trouble => cases trouble <;> simp [settle]

@[simp] theorem ledger_parseFile (g : LoadedGrammar) (content : Text.Utf8.Bytes) :
    (x.parseFile p g content s).2.ledger = s.ledger := by
  unfold parseFile parseSource
  dsimp only
  cases Parsed.ofOutcome g.language (x.parse g.language (s.parses.count g.language) content) with
  | error e => rfl
  | ok parsed =>
    dsimp only
    split <;> rfl

@[simp] theorem ledger_searchTree (language : String) (q : Query) (tree : SyntaxTree) :
    (x.searchTree language q tree s).2.ledger = s.ledger := rfl

@[simp] theorem ledger_grammarCaptures (g : LoadedGrammar) (content : Text.Utf8.Bytes) :
    (x.grammarCaptures p l g content s).2.ledger = s.ledger := by
  have hparse := x.ledger_parseFile p s g content
  unfold grammarCaptures
  generalize x.parseFile p g content s = result at hparse ⊢
  obtain ⟨answer, after⟩ := result
  cases answer with
  | error e => exact hparse
  | ok parsed => simpa using hparse

@[simp] theorem ledger_outlineWith (g : Option LoadedGrammar) :
    (x.outlineWith d p l g s).2.ledger = s.ledger := by
  unfold outlineWith definitionsIn capturesIn
  cases d.read p with
  | error e => simp
  | ok content => cases l.byHeadings <;> cases g <;> simp

@[simp] theorem ledger_outlineIn : (x.outlineIn d report p s).2.ledger = s.ledger := by
  unfold outlineIn
  cases assignment report p <;> simp

theorem ledger_proceed (progress : Progress) :
    (x.proceed d report p progress s).2.ledger = s.ledger := by
  cases progress with
  | planned =>
    simp only [proceed]
    cases assignment report p <;> simp [Progress.ending]
  | reading l g =>
    simp only [proceed]
    cases d.read p with
    | error e => simp [Progress.ending]
    | ok content => cases l.byHeadings <;> cases g <;> rfl
  | parsing l g content =>
    have hparse := x.ledger_parseFile p s g content
    simp only [proceed]
    generalize x.parseFile p g content s = result at hparse ⊢
    obtain ⟨answer, after⟩ := result
    cases answer <;> simpa [Progress.ending] using hparse
  | searching l g content tree =>
    have hsearch := x.ledger_searchTree s l.name g.query tree
    simp only [proceed]
    generalize x.searchTree l.name g.query tree s = result at hsearch ⊢
    obtain ⟨answer, after⟩ := result
    cases answer <;> simpa [Progress.ending] using hsearch
  | listing l content captures => simp [proceed, Progress.ending]
  | ended outcome => rfl

theorem ledger_finish (progress : Progress) :
    (x.finish d report p progress s).2.ledger = s.ledger := by
  cases progress <;> simp [finish]

end Frame

end Extractor

namespace Pool

variable (x : Extractor) (d : Disk) (report : Registry.LoadReport) (workers : Int)

theorem ledger_advance (pool : Pool) (i : Nat) :
    (pool.advance x d report workers i).session.ledger = pool.session.ledger := by
  unfold advance
  split
  · rfl
  · split
    · exact x.ledger_proceed d report _ pool.session _
    · rfl

theorem ledger_run (pool : Pool) (schedule : List Nat) :
    (pool.run x d report workers schedule).session.ledger = pool.session.ledger := by
  induction schedule generalizing pool with
  | nil => rfl
  | cons i schedule ih => exact (ih _).trans (ledger_advance x d report workers pool i)

theorem ledger_outcomes (jobs : List Job) (s : Session) :
    (outcomes x d report jobs s).2.ledger = s.ledger := by
  induction jobs generalizing s with
  | nil => rfl
  | cons job jobs ih => exact (ih _).trans (x.ledger_finish d report job.path s job.progress)

end Pool

namespace Extractor

theorem ledger_outlineFiles (x : Extractor) (d : Disk) (report : Registry.LoadReport)
    (workers : Int) (schedule : List Nat) (paths : List Path) (s : Session) :
    (x.outlineFiles d report workers schedule paths s).2.ledger = s.ledger := by
  unfold outlineFiles
  dsimp only
  rw [Pool.ledger_outcomes]
  split
  · rfl
  · rw [Pool.ledger_run]
    rfl

theorem ledger_allowedOf (x : Extractor) (paths : List Path) (s : Session) :
    (x.allowedOf paths s).2.ledger = s.ledger := by
  induction paths generalizing s with
  | nil => rfl
  | cons p paths ih =>
    simp only [allowedOf]
    rw [ih, ledger_allows]

theorem ledger_outlineFile {x : Extractor} {p : Path} (h : x.Permits p) (d : Disk) (s : Session) :
    (x.outlineFile d p s).2.ledger =
      match Language.forPath? p with
      | none => s.ledger
      | some l => if l.byHeadings then s.ledger else (s.ledger.load x.registry l.name).2 := by
  unfold outlineFile
  rw [allows_of_permits h]
  cases Language.forPath? p with
  | none => simp
  | some l =>
    dsimp only
    split
    · simp
    · rw [← (x.registry.ledger_loadGrammar l.name s).2]
      rcases x.registry.loadGrammar l.name s with ⟨answer, after⟩
      cases answer <;> simp

theorem ledger_outlineFile_of_not_permits {x : Extractor} {p : Path} (h : ¬x.Permits p) (d : Disk)
    (s : Session) : (x.outlineFile d p s).2.ledger = s.ledger := by
  have hanswer := allows_of_not_permits h s
  have hledger := x.ledger_allows p s
  unfold outlineFile
  generalize x.allows p s = result at hanswer hledger
  obtain ⟨allowed, after⟩ := result
  cases hanswer
  exact hledger

end Extractor

end SourceOutline
