import SourceOutline.Outline.Definition
import SourceOutline.Text.Blank

/-! Captures: tagged line ranges, found by a query in a syntax tree or by a text scan. -/
namespace SourceOutline

/-- Where a captured node stands: its own lines and those of its parent. -/
structure Anchor where
  range : LineRange
  parent : Option LineRange
deriving DecidableEq, Repr

/-- A tag together with the lines it marks. A capture from a text scan has neither byte offsets nor
an anchor; then its own range decides. -/
structure Capture where
  name : String
  range : LineRange
  bytes : Option (Int × Int)
  anchor : Option Anchor
deriving DecidableEq, Repr

namespace Capture

/-- Tags with the word `definition` mark definitions; all others are helpers of the query. -/
def isDefinition (c : Capture) : Bool :=
  Text.contains c.name "definition"

/-- Tags with `name.definition` mark the name inside a definition rather than the definition
itself. -/
def isName (c : Capture) : Bool :=
  Text.contains c.name "name.definition"

/-- The lines that a capture stands for: those of the enclosing declaration when the capture marks a
name. -/
def span (c : Capture) : LineRange :=
  match c.anchor with
  | none => c.range
  | some a => if c.isName then a.parent.getD a.range else a.range

end Capture

end SourceOutline
