import SourceOutline.Capture
import SourceOutline.Markdown.Heading
import SourceOutline.Text.Lines

/-! Sections of Markdown text. A section goes from its heading to the line before the next heading
of the same or a higher rank, or to the last line; so sections nest. -/
namespace SourceOutline.Markdown

def sectionEnd (last : Int) (level : Nat) (following : List Heading) : Int :=
  match following.find? (fun h => decide (h.level ≤ level)) with
  | some h => h.line - 1
  | none => last

def sections (last : Int) : List Heading → List LineRange
  | [] => []
  | h :: hs => ⟨h.line, sectionEnd last h.level hs⟩ :: sections last hs

def sectionTag : String := "definition.section"

def captures (text : String) : List Capture :=
  let lines := Text.lines text
  (sections (lines.length - 1 : Nat) (headings lines)).map fun range =>
    ⟨sectionTag, range, none, none⟩

end SourceOutline.Markdown
