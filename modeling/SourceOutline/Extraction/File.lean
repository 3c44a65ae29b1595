import SourceOutline.Extraction.Extractor
import SourceOutline.Markdown.Section
import SourceOutline.Outline.Format
import SourceOutline.Text.Lines

/-! The outline of one file. Every failure becomes an error value, and every file that is not vetoed
ends with one event in the log that tells how it went. -/
namespace SourceOutline

def Trouble.ofRead (p : Path) : ReadError → Trouble
  | .disk e => .known (.read p.toString e.reason)
  | .system e => .known (.read p.toString e.shown)
  | .fault f => .crash f

namespace Extractor

/-- Whether a path may be read. A check that faults vetoes the path. -/
def allows (x : Extractor) (p : Path) (s : Session) : Bool × Session :=
  match x.access with
  | none => (true, s)
  | some check =>
    match check p with
    | .error f =>
      (false, s.emit "access_check_failed" .warning [("path", .text p.toString),
        ("reason", .text f.text)])
    | .ok true => (true, s)
    | .ok false => (false, s.emit "file_vetoed" .debug [("path", .text p.toString)])

/-- Logs an error as the end of a file. That a language is not supported is no reason to warn. -/
def fail (p : Path) (e : OutlineError) (s : Session) : Outcome × Session :=
  let s := match e.code with
    | .unsupportedLanguage => s.emit "file_unsupported" .debug [("path", .text p.toString)]
    | _ => s.emit "file_extraction_failed" .warning
        [("path", .text p.toString), ("error", .text e.name), ("reason", e.reason?.getD .null)]
  (.error e, s)

def parseSource (x : Extractor) (g : LoadedGrammar) (content : Text.Utf8.Bytes) (s : Session) :
    Except OutlineError Parsed × Session :=
  let attempt := s.parses.count g.language
  (Parsed.ofOutcome g.language (x.parse g.language attempt content),
    { s with parses := s.parses.bump g.language })

def searchTree (x : Extractor) (language : String) (q : Query) (t : SyntaxTree) (s : Session) :
    Except OutlineError (List Capture) × Session :=
  let attempt := s.searches.count language
  (capturesOfOutcome language (x.search language attempt q t),
    { s with searches := s.searches.bump language })

def parseFile (x : Extractor) (p : Path) (g : LoadedGrammar) (content : Text.Utf8.Bytes)
    (s : Session) : Except OutlineError Parsed × Session :=
  match x.parseSource g content s with
  | (.error e, s) => (.error e, s)
  | (.ok parsed, s) =>
    (.ok parsed, if parsed.errors == 0 then s
      else s.emit "partial_parse" .debug [("path", .text p.toString),
        ("errors", .int parsed.errors)])

def grammarCaptures (x : Extractor) (p : Path) (l : Language) (g : LoadedGrammar)
    (content : Text.Utf8.Bytes) (s : Session) : Except OutlineError (List Capture) × Session :=
  match x.parseFile p g content s with
  | (.error e, s) => (.error e, s)
  | (.ok parsed, s) => x.searchTree l.name g.query parsed.tree s

/-- The captures of a file: from its headings, or through its grammar. -/
def capturesIn (x : Extractor) (p : Path) (l : Language) (g : Option LoadedGrammar)
    (content : Text.Utf8.Bytes) (s : Session) : Except OutlineError (List Capture) × Session :=
  match l.byHeadings, g with
  | false, some g => x.grammarCaptures p l g content s
  | _, _ => (.ok (Markdown.captures (Text.Utf8.decode content)), s)

def definitionsOf (x : Extractor) (content : Text.Utf8.Bytes) :
    Except OutlineError (List Capture) → Except Trouble (Option (List Definition))
  | .error e => .error (.known e)
  | .ok captures =>
    (synthesize captures (Text.lines (Text.Utf8.decode content)) x.limits.minLines
      x.lineTest).mapError
      SynthesisError.trouble

/-- Everything after the grammar: reading, captures, synthesis. -/
def definitionsIn (x : Extractor) (d : Disk) (p : Path) (l : Language) (g : Option LoadedGrammar)
    (s : Session) : Except Trouble (Option (List Definition)) × Session :=
  match d.read p with
  | .error e => (.error (.ofRead p e), s)
  | .ok content =>
    let (captures, s) := x.capturesIn p l g content s
    (x.definitionsOf content captures, s)

def settle (p : Path) (l : Language) :
    Except Trouble (Option (List Definition)) → Session → Outcome × Session
  | .ok ds, s =>
    (.ok ⟨p, l.name, ds⟩, s.emit "file_extracted" .debug
      [("path", .text p.toString), ("language", .text l.name),
        ("definitions", .int (ds.getD []).length)])
  | .error (.known e), s => fail p e s
  | .error (.crash f), s =>
    fail p (.unexpected p.toString f.describe) (s.emit "file_extraction_crashed" .error
      [("path", .text p.toString), ("language", .text l.name), ("exc_info", .bool true)])

def outlineWith (x : Extractor) (d : Disk) (p : Path) (l : Language) (g : Option LoadedGrammar)
    (s : Session) : Outcome × Session :=
  let (definitions, s) := x.definitionsIn d p l g s
  settle p l definitions s

def outlineFile (x : Extractor) (d : Disk) (p : Path) (s : Session) : Option Outcome × Session :=
  match x.allows p s with
  | (false, s) => (none, s)
  | (true, s) =>
    let (outcome, s) := match Language.forPath? p with
      | none => fail p (.unsupportedLanguage p.toString) s
      | some l =>
        if l.byHeadings then x.outlineWith d p l none s
        else match x.registry.loadGrammar l.name s with
          | (.error e, s) => fail p e s
          | (.ok g, s) => x.outlineWith d p l (some g) s
    (some outcome, s)

end Extractor

end SourceOutline
