/-! Faults of the components this library is given: a grammar loader, a parser, an access check. A
fault carries a kind, which names its sort, and a text, which may be empty. -/
namespace SourceOutline

structure Fault where
  kind : String
  text : String
deriving DecidableEq, Repr

namespace Fault

def describe (f : Fault) : String :=
  f.kind ++ ": " ++ f.text

def badValue (text : String) : Fault := ⟨"ValueError", text⟩

def badIndex : Fault := ⟨"IndexError", "list index out of range"⟩

/-- Calls that stand one inside the other until there is no room for another. -/
def tooDeep : Fault :=
  ⟨"RecursionError", "maximum recursion depth exceeded while calling a Python object"⟩

def valueKinds : List String :=
  ["ValueError", "UnicodeError", "UnicodeEncodeError", "UnicodeDecodeError",
    "UnicodeTranslateError"]

end Fault

/-- How many calls of one function may stand one inside the other. The room that is left for them
depends on the callers around, so the number is a rough one. -/
def maxNesting : Nat := 980

end SourceOutline
