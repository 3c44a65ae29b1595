import SourceOutline.Extraction.File

/-! What the outcome of one file depends on. The log never decides anything: a permitted path leaves
the session as it is, loading a grammar does not touch the counts of parses and searches, and how a
file ends is in its outcome alone. -/
namespace SourceOutline

def Trouble.errorOn (p : Path) : Trouble → OutlineError
  | .known e => e
  | .crash f => .unexpected p.toString f.describe

namespace Extractor

/-- There is no access check, or it lets the path pass. -/
def Permits (x : Extractor) (p : Path) : Prop := ∀ check, x.access = some check → check p = .ok true

theorem allows_of_permits {x : Extractor} {p : Path} (h : x.Permits p) (s : Session) :
    x.allows p s = (true, s) := by
  unfold allows
  cases haccess : x.access with
  | none => rfl
  | some check =>
    dsimp only
    rw [h check haccess]

theorem allows_of_not_permits {x : Extractor} {p : Path} (h : ¬x.Permits p) (s : Session) :
    (x.allows p s).1 = false := by
  unfold allows
  cases haccess : x.access with
  | none => exact absurd (fun _ hcheck => by simp [haccess] at hcheck) h
  | some check =>
    dsimp only
    cases hanswer : check p with
    | error f => rfl
    | ok answer =>
      cases answer with
      | false => rfl
      | true =>
        refine absurd (fun other hother => ?_) h
        rw [haccess] at hother
        cases hother
        exact hanswer

theorem fst_fail (p : Path) (e : OutlineError) (s : Session) : (fail p e s).1 = .error e := rfl

theorem fst_settle (p : Path) (l : Language) (result : Except Trouble (Option (List Definition)))
    (s : Session) :
    (settle p l result s).1 =
      match result with
      | .ok ds => .ok ⟨p, l.name, ds⟩
      | .error trouble => .error (trouble.errorOn p) := by
  cases result with
  | ok ds => rfl
  | error trouble => cases trouble <;> rfl

theorem fst_outlineWith (x : Extractor) (d : Disk) (p : Path) (l : Language)
    (g : Option LoadedGrammar) (s : Session) :
    (x.outlineWith d p l g s).1 =
      match (x.definitionsIn d p l g s).1 with
      | .ok ds => .ok ⟨p, l.name, ds⟩
      | .error trouble => .error (trouble.errorOn p) := by
  unfold outlineWith
  exact fst_settle p l _ _

theorem fst_outlineWith_congr {x : Extractor} {p : Path} {l : Language} {s t : Session}
    (h : ∀ g content, (x.grammarCaptures p l g content s).1 = (x.grammarCaptures p l g content t).1)
    (d : Disk) (g : Option LoadedGrammar) :
    (x.outlineWith d p l g s).1 = (x.outlineWith d p l g t).1 := by
  have hcaptures : ∀ content, (x.capturesIn p l g content s).1 =
      (x.capturesIn p l g content t).1 := by
    intro content
    unfold capturesIn
    split
    · exact h _ content
    · rfl
  have hdefinitions : (x.definitionsIn d p l g s).1 = (x.definitionsIn d p l g t).1 := by
    unfold definitionsIn
    cases d.read p with
    | error e => rfl
    | ok content => exact congrArg (x.definitionsOf content) (hcaptures content)
  rw [fst_outlineWith, fst_outlineWith, hdefinitions]

theorem fst_parseFile (x : Extractor) (p : Path) (g : LoadedGrammar) (content : Text.Utf8.Bytes)
    (s : Session) :
    (x.parseFile p g content s).1 =
      Parsed.ofOutcome g.language (x.parse g.language (s.parses.count g.language) content) := by
  unfold parseFile parseSource
  dsimp only
  cases Parsed.ofOutcome g.language (x.parse g.language (s.parses.count g.language) content) <;> rfl

theorem searches_parseFile (x : Extractor) (p : Path) (g : LoadedGrammar)
    (content : Text.Utf8.Bytes) (s : Session) :
    (x.parseFile p g content s).2.searches = s.searches := by
  unfold parseFile parseSource
  dsimp only
  cases Parsed.ofOutcome g.language (x.parse g.language (s.parses.count g.language) content) with
  | error e => rfl
  | ok parsed =>
    dsimp only
    split <;> rfl

theorem fst_grammarCaptures (x : Extractor) (p : Path) (l : Language) (g : LoadedGrammar)
    (content : Text.Utf8.Bytes) (s : Session) :
    (x.grammarCaptures p l g content s).1 =
      (Parsed.ofOutcome g.language (x.parse g.language (s.parses.count g.language) content)).bind
        fun parsed =>
        capturesOfOutcome l.name
          (x.search l.name (s.searches.count l.name) g.query parsed.tree) := by
  have hparse := x.fst_parseFile p g content s
  have hsearches := x.searches_parseFile p g content s
  unfold grammarCaptures
  generalize x.parseFile p g content s = result at hparse hsearches
  obtain ⟨answer, after⟩ := result
  dsimp only at hparse hsearches
  rw [← hparse]
  cases answer with
  | error e => rfl
  | ok parsed =>
    dsimp only [searchTree]
    rw [hsearches]
    rfl

theorem outlineFile_of_permits {x : Extractor} {p : Path} (h : x.Permits p) (d : Disk)
    (s : Session) :
    (x.outlineFile d p s).1 = some (match Language.forPath? p with
      | none => .error (.unsupportedLanguage p.toString)
      | some l =>
        if l.byHeadings then (x.outlineWith d p l none s).1
        else match x.registry.loadGrammar l.name s with
          | (.error e, _) => .error e
          | (.ok g, s) => (x.outlineWith d p l (some g) s).1) := by
  unfold outlineFile
  rw [allows_of_permits h]
  cases Language.forPath? p with
  | none => rfl
  | some l =>
    dsimp only
    split
    · rfl
    · rcases x.registry.loadGrammar l.name s with ⟨answer, after⟩
      cases answer <;> rfl

theorem outlineFile_of_not_permits {x : Extractor} {p : Path} (h : ¬x.Permits p) (d : Disk)
    (s : Session) : (x.outlineFile d p s).1 = none := by
  have hanswer := allows_of_not_permits h s
  unfold outlineFile
  generalize x.allows p s = result at hanswer
  obtain ⟨allowed, after⟩ := result
  cases hanswer
  rfl

end Extractor

namespace Registry

theorem parses_loadAnew (r : Registry) (l : Language) (s : Session) :
    (r.loadAnew l s).2.parses = s.parses ∧ (r.loadAnew l s).2.searches = s.searches := by
  unfold loadAnew
  dsimp only
  split
  · exact ⟨rfl, rfl⟩
  · split <;> exact ⟨rfl, rfl⟩

theorem parses_loadGrammar (r : Registry) (id : String) (s : Session) :
    (r.loadGrammar id s).2.parses = s.parses ∧ (r.loadGrammar id s).2.searches = s.searches := by
  unfold loadGrammar
  split
  · exact ⟨rfl, rfl⟩
  · split
    · exact ⟨rfl, rfl⟩
    · rename_i l _
      have hanew := r.parses_loadAnew l s
      split <;> rename_i heq <;> rw [heq] at hanew <;> exact hanew

end Registry

end SourceOutline
