import SourceOutline.Disk
import SourceOutline.Grammar.Registry
import SourceOutline.Outline.Synthesis
import SourceOutline.Query.Match

/-! What outlining files needs: the registry, a parser, a query engine, an access check, a test for
inline markup and two limits. Parser and query engine are given the number of their earlier calls
for the language. -/
namespace SourceOutline

structure ExtractionLimits where
  minLines : Int
  maxWorkers : Int
  minLines_pos : 1 ≤ minLines
  maxWorkers_pos : 1 ≤ maxWorkers

inductive LimitError where
  | minLines (n : Int)
  | maxWorkers (n : Int)
deriving DecidableEq, Repr

def LimitError.message : LimitError → String
  | .minLines n => minLinesMessage n
  | .maxWorkers n => s!"max_workers must be >= 1, got {n}"

namespace ExtractionLimits

def make (minLines maxWorkers : Int) : Except LimitError ExtractionLimits :=
  if h : 1 ≤ minLines then
    if k : 1 ≤ maxWorkers then .ok ⟨minLines, maxWorkers, h, k⟩ else .error (.maxWorkers maxWorkers)
  else .error (.minLines minLines)

end ExtractionLimits

structure Extractor where
  registry : Registry
  parse : String → Nat → Text.Utf8.Bytes → Except Fault (Option SyntaxTree)
  search : String → Nat → Query → SyntaxTree → Except Fault (List QueryMatch)
  /-- Without a check every path is allowed. -/
  access : Option (Path → Except Fault Bool)
  lineTest : LineTest
  limits : ExtractionLimits

structure Parsed where
  language : String
  tree : SyntaxTree
  errors : Nat

/-- What comes of a call of the parser. A tree with errors is a tree; only a fault or no tree at all
is a failure. -/
def Parsed.ofOutcome (language : String) :
    Except Fault (Option SyntaxTree) → Except OutlineError Parsed
  | .error f => .error (.parse language f.text)
  | .ok none => .error (.parse language "parser returned no tree")
  | .ok (some t) => .ok ⟨language, t, t.errorCount⟩

def capturesOfOutcome (language : String) :
    Except Fault (List QueryMatch) → Except OutlineError (List Capture)
  | .error f => .error (.query language f.text)
  | .ok found => .ok (capturesOf found)

end SourceOutline
