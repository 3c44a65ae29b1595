import SourceOutline.Error
import SourceOutline.Outline.Definition
import SourceOutline.Path

/-! Outlines as text and as data. Here and nowhere else lines are counted from one. -/
namespace SourceOutline

/-- The definitions found in a file; there may be none. -/
structure Outline where
  path : Path
  language : String
  definitions : Option (List Definition)

abbrev Outcome := Except OutlineError Outline

def Outline.found (o : Outline) : Bool := !(o.definitions.getD []).isEmpty

def Definition.line (d : Definition) : String :=
  s!"{d.range.first + 1}--{d.range.last + 1} | {d.label}"

def definitionLines (ds : List Definition) : String := "\n".intercalate (ds.map Definition.line)

def noDefinitions : String := "No source code definitions found."

/-- The body of a file's section: its definitions, or one line that says why there are none. -/
def Outcome.body : Outcome → String
  | .error e => s!"[{e.name}] {e.message}"
  | .ok o => if o.found then definitionLines (o.definitions.getD []) else noDefinitions

def Outcome.section (path : Path) (outcome : Outcome) : String :=
  "# " ++ path.name ++ "\n" ++ outcome.body

def Definition.toValue (d : Definition) : Value :=
  .record [("start", .int (d.range.first + 1)), ("end", .int (d.range.last + 1)),
    ("label", .text d.label)]

def Outcome.entry (path : Path) : Outcome → Value
  | .error e => .record [("path", .text path.toString), ("error", e.report.toValue)]
  | .ok o => .record [("path", .text path.toString), ("language", .text o.language),
      ("definitions", .list ((o.definitions.getD []).map Definition.toValue))]

def counted (count : Int) (noun : String) : String :=
  if count == 1 then s!"{count} {noun}" else s!"{count} {noun}s"

end SourceOutline
