import SourceOutline.Log.Event
import SourceOutline.Query.Pattern

/-! The state that outlasts a single call: the grammars loaded so far, how often each component was
called for each language, the batch that runs, and the log. -/
namespace SourceOutline

/-- How often something was done under each name; names never used are absent. -/
abbrev Tally := List (String × Nat)

namespace Tally

def count (t : Tally) (name : String) : Nat := (t.lookup name).getD 0

def bump (name : String) : Tally → Tally
  | [] => [(name, 1)]
  | (k, n) :: rest => if k == name then (k, n + 1) :: rest else (k, n) :: bump name rest

end Tally

/-- A grammar and the definition query compiled for it, under the name of its language. -/
structure LoadedGrammar where
  language : String
  queryText : String
  query : Query

structure Session where
  loaded : List (String × LoadedGrammar)
  loads : Tally
  compiles : Tally
  parses : Tally
  searches : Tally
  batch : BatchState
  log : List Event

namespace Session

def start : Session := ⟨[], [], [], [], [], .start, []⟩

def emit (s : Session) (name : String) (level : Level) (fields : List (String × Value)) : Session :=
  { s with log := s.log ++ [⟨name, level, fields, s.batch.current⟩] }

def isLoaded (s : Session) (id : String) : Bool := (s.loaded.lookup id).isSome

def loadedIds (s : Session) : List String :=
  (s.loaded.map (·.1)).mergeSort fun a b => !decide (b < a)

end Session

end SourceOutline
