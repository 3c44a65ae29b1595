import SourceOutline.Error
import SourceOutline.Fault
import SourceOutline.Language.Table
import SourceOutline.Session

/-! The grammar registry. A grammar is loaded and its query compiled when the language is first
asked for, and kept from then on. A failure is reported and not kept, so the next call tries
again. -/
namespace SourceOutline

/-- The languages by id, and the two components that can fail. The number tells how often the
component was called for the language before. -/
structure Registry where
  languages : List (String × Language)
  load : Language → Nat → Except Fault Unit
  compile : Language → Nat → Except Fault Query

abbrev Answer := Except OutlineError LoadedGrammar

def Language.byName : List (String × Language) := Language.table.map fun l => (l.name, l)

namespace Registry

def grammarLanguage? (r : Registry) (id : String) : Option Language :=
  (r.languages.lookup id).filter (!·.byHeadings)

def loadAnew (r : Registry) (l : Language) (s : Session) : Answer × Session :=
  let attempt := s.loads.count l.name
  let s := { s with loads := s.loads.bump l.name }
  match r.load l attempt with
  | .error f => (.error (.grammarLoad l.name f.describe), s)
  | .ok () =>
    let attempt := s.compiles.count l.name
    let s := { s with compiles := s.compiles.bump l.name }
    match r.compile l attempt with
    | .error f => (.error (.query l.name f.text), s)
    | .ok q =>
      (.ok ⟨l.name, l.query, q⟩, s.emit "grammar_loaded" .debug [("language", .text l.name)])

def keep (id : String) (g : LoadedGrammar) (s : Session) : Session :=
  { s with loaded := s.loaded ++ [(id, g)] }

def loadGrammar (r : Registry) (id : String) (s : Session) : Answer × Session :=
  match s.loaded.lookup id with
  | some g => (.ok g, s)
  | none =>
    match r.grammarLanguage? id with
    | none => (.error (.unsupportedLanguage id), s)
    | some l =>
      match r.loadAnew l s with
      | (.ok g, s) => (.ok g, keep id g s)
      | (.error e, s) => (.error e, s)

structure LoadReport where
  loaded : List (String × LoadedGrammar)
  failures : List (String × OutlineError)

def distinctIds (ids : List String) : List String :=
  (ids.mergeSort fun a b => !decide (b < a)).eraseDups

/-- Loads one language of a request. Ids without a grammar are passed over. -/
def loadNext (r : Registry) (id : String) (report : LoadReport) (s : Session) :
    LoadReport × Session :=
  match r.languages.lookup id with
  | none => (report, s.emit "unknown_language_skipped" .warning [("language", .text id)])
  | some l =>
    if l.byHeadings then
      (report, s.emit "fallback_language_skipped" .debug [("language", .text id)])
    else match r.loadGrammar id s with
      | (.ok g, s) => ({ report with loaded := report.loaded ++ [(id, g)] }, s)
      | (.error e, s) =>
        ({ report with failures := report.failures ++ [(id, e)] },
          s.emit "grammar_load_failed" .warning
            [("language", .text id), ("error", .text e.name), ("reason", e.reason?.getD .null)])

def loadEach (r : Registry) : List String → LoadReport → Session → LoadReport × Session
  | [], report, s => (report, s)
  | id :: ids, report, s =>
    let (report, s) := r.loadNext id report s
    r.loadEach ids report s

/-- Loads every requested language that can be loaded. One that fails does not affect the others. -/
def loadAll (r : Registry) (ids : List String) (s : Session) : LoadReport × Session :=
  r.loadEach (distinctIds ids) ⟨[], []⟩ s

end Registry

end SourceOutline
