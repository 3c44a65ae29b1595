import SourceOutline.Text.Blank

/-! Headings of Markdown text. A line is classified by itself first; which lines are headings then
depends on little: the fence that is open, if any, and whether the line before is plain text. A
leading block of metadata and fenced code hold no headings. -/
namespace SourceOutline.Markdown

structure Fence where
  mark : Char
  size : Nat
deriving DecidableEq, Repr

inductive LineKind where
  /-- A run of fence marks, and whether nothing but blanks follows it. -/
  | fence (fence : Fence) (bare : Bool)
  | hashes (level : Nat)
  | underline (level : Nat)
  | text
  | blank
deriving DecidableEq, Repr

def runLength (c : Char) (cs : List Char) : Nat := (cs.takeWhile (· == c)).length

/-- The rest of a line after a fence: nothing but a final line feed may break it. -/
def fenceRest? (cs : List Char) : Option (List Char) :=
  let rest := if cs.getLast? == some '\n' then cs.dropLast else cs
  if rest.contains '\n' then none else some rest

/-- A fence of `mark` at the very start: three marks or more. -/
def fenceOf? (mark : Char) (cs : List Char) : Option LineKind :=
  let size := runLength mark cs
  if size < 3 then none
  else (fenceRest? (cs.drop size)).map fun rest => .fence ⟨mark, size⟩ (Text.allBlank rest)

def fence? (cs : List Char) : Option LineKind :=
  let indent := runLength ' ' cs
  if 3 < indent then none
  else (fenceOf? '\x60' (cs.drop indent)).or (fenceOf? '~' (cs.drop indent))

def hashes? (cs : List Char) : Option LineKind :=
  let level := runLength '#' cs
  let rest := cs.drop level
  if 1 ≤ level ∧ level ≤ 6 ∧ (rest.head?.map Text.isBlank).getD false ∧ !Text.allBlank rest then
    some (.hashes level)
  else none

def underlineOf? (mark : Char) (level : Nat) (cs : List Char) : Option LineKind :=
  let size := runLength mark cs
  if 3 ≤ size ∧ Text.allBlank (cs.drop size) then some (.underline level) else none

def underline? (cs : List Char) : Option LineKind :=
  (underlineOf? '=' 1 cs).or (underlineOf? '-' 2 cs)

def LineKind.ofChars (cs : List Char) : LineKind :=
  ((fence? cs).or ((hashes? cs).or (underline? cs))).getD (if Text.allBlank cs then
    .blank else .text)

def Fence.closes (opened : Fence) (fence : Fence) (bare : Bool) : Bool :=
  fence.mark == opened.mark && decide (opened.size ≤ fence.size) && bare

structure Heading where
  line : Nat
  level : Nat
deriving DecidableEq, Repr

/-- What the lines before decide: the open fence, and whether the last line can be underlined. -/
structure ScanState where
  fence : Option Fence
  text : Bool
deriving DecidableEq, Repr

def ScanState.start : ScanState := ⟨none, false⟩

/-- One line. An underline makes a heading of the line before it; without such a line it is text
itself. -/
def ScanState.step (s : ScanState) (line : Nat) : LineKind → ScanState × Option Heading
  | .fence f bare =>
    match s.fence with
    | none => (⟨some f, false⟩, none)
    | some opened => if opened.closes f bare then (⟨none, false⟩, none) else (s, none)
  | kind =>
    if s.fence.isSome then (s, none)
    else match kind with
      | .hashes level => (⟨none, false⟩, some ⟨line, level⟩)
      | .underline level =>
        if s.text then (⟨none, false⟩, some ⟨line - 1, level⟩) else (⟨none, true⟩, none)
      | .text => (⟨none, true⟩, none)
      | _ => (⟨none, false⟩, none)

def headingsFrom (s : ScanState) (line : Nat) : List LineKind → List Heading
  | [] => []
  | kind :: kinds =>
    let (s, heading) := s.step line kind
    heading.toList ++ headingsFrom s (line + 1) kinds

/-- The number of lines of the metadata block, given the lines after the first: up to the first line
of three hyphens or three points, or zero when there is none. -/
def metadataSize (lines : List (List Char)) : Nat :=
  let before := lines.takeWhile fun l => Text.trimChars l != ['-', '-', '-'] &&
    Text.trimChars l != ['.', '.', '.']
  if before.length < lines.length then before.length + 2 else 0

def contentStart : List (List Char) → Nat
  | [] => 0
  | first :: rest => if Text.trimChars first == ['-', '-', '-'] then metadataSize rest else 0

def headingsOf (lines : List (List Char)) : List Heading :=
  let start := contentStart lines
  headingsFrom .start start ((lines.drop start).map LineKind.ofChars)

def headings (lines : List String) : List Heading := headingsOf (lines.map String.toList)

end SourceOutline.Markdown
