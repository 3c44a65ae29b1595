/-! A place in YAML text: what follows, and the line and column, by which the language tells
structure. -/
namespace SourceOutline.Yaml

structure Cursor where
  rest : List Char
  index : Nat
  line : Nat
  column : Nat
deriving DecidableEq, Repr

def isBreak (c : Char) : Bool := c == '\n' || c == '\x85' || c == '\u2028' || c == '\u2029'

/-- The end of the text reads as a null character, which itself may not occur. -/
def isEnd (c : Char) : Bool := c == '\x00'

def isBreakOrEnd (c : Char) : Bool := isBreak c || isEnd c

def isGap (c : Char) : Bool := c == ' ' || c == '\t' || isBreakOrEnd c

def isNameEnd (c : Char) : Bool := c == ' ' || isBreakOrEnd c

def isWordChar (c : Char) : Bool := c.isAlphanum || c == '-' || c == '_'

namespace Cursor

def start (cs : List Char) : Cursor := ⟨cs, 0, 0, 0⟩

def peekAt (c : Cursor) (k : Nat) : Char := c.rest.getD k '\x00'

def peek (c : Cursor) : Char := c.peekAt 0

/-- One character further. A byte order mark takes no column. -/
def next (c : Cursor) : Cursor :=
  match c.rest with
  | [] => c
  | ch :: rest =>
    if isBreak ch then ⟨rest, c.index + 1, c.line + 1, 0⟩
    else ⟨rest, c.index + 1, c.line, if ch == '\ufeff' then c.column else c.column + 1⟩

def skip : Nat → Cursor → Cursor
  | 0, c => c
  | n + 1, c => skip n c.next

/-- The longest run of characters with property `p`, and the place after it. -/
def takeWhile (p : Char → Bool) (c : Cursor) : List Char × Cursor :=
  let run := c.rest.takeWhile p
  (run, c.skip run.length)

def skipWhile (p : Char → Bool) (c : Cursor) : Cursor := (c.takeWhile p).2

def skipSpaces (c : Cursor) : Cursor := c.skipWhile (· == ' ')

def skipSpacesTo (column : Nat) (c : Cursor) : Cursor :=
  c.skip (min (c.rest.takeWhile (· == ' ')).length (column - c.column))

def skipLine (c : Cursor) : Cursor := c.skipWhile (!isBreakOrEnd ·)

def lineBreak? (c : Cursor) : Option (Char × Cursor) :=
  if isBreak c.peek then
    some (if c.peek == '\u2028' || c.peek == '\u2029' then c.peek else '\n', c.next)
  else none

def atMarker (mark : Char) (c : Cursor) : Bool :=
  c.column == 0 && c.peekAt 0 == mark && c.peekAt 1 == mark && c.peekAt 2 == mark &&
    isGap (c.peekAt 3)

def atAnyMarker (c : Cursor) : Bool := c.atMarker '-' || c.atMarker '.'

end Cursor

end SourceOutline.Yaml
