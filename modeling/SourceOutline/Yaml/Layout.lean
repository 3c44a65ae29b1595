import SourceOutline.Yaml.Token

/-! From text to tokens. Outside brackets indentation makes structure: a block opens where a key or
an entry stands further right than the block around it, and ends where something stands further
left. Whether a word is a key shows only at the colon after it; so the place of each word that may
still become one is kept. -/
namespace SourceOutline.Yaml

/-- A word that becomes a key if a colon follows. Where a block's own column asks for a key it must
become one. -/
structure PossibleKey where
  token : Nat
  required : Bool
  index : Nat
  line : Nat
  column : Nat
deriving DecidableEq, Repr

structure Layout where
  cursor : Cursor
  tokens : List Token
  /-- How many brackets are open. -/
  flow : Nat
  /-- The column of the innermost block, or minus one. -/
  indent : Int
  outer : List Int
  keyAllowed : Bool
  /-- At most one possible key for each number of open brackets. -/
  keys : List (Nat × PossibleKey)
deriving DecidableEq, Repr

namespace Layout

def start (cs : List Char) : Layout :=
  let c := Cursor.start cs
  ⟨if c.peek == '\ufeff' then c.next else c, [], 0, -1, [], true, []⟩

def push (t : Token) (l : Layout) : Layout := { l with tokens := l.tokens ++ [t] }

def insert (place : Nat) (t : Token) (l : Layout) : Layout :=
  { l with tokens := l.tokens.take place ++ t :: l.tokens.drop place }

def pushNext (n : Nat) (t : Token) (l : Layout) : Layout :=
  { l.push t with cursor := l.cursor.skip n }

/-- Passes over spaces, comments and line breaks; at most `fuel` lines. Outside brackets a new line
may start with a key. -/
def toNext : Nat → Layout → Layout
  | 0, l => l
  | fuel + 1, l =>
    let c := l.cursor.skipSpaces
    let c := if c.peek == '#' then c.skipLine else c
    match c.lineBreak? with
    | some (_, c) => toNext fuel { l with cursor := c, keyAllowed := l.keyAllowed || l.flow == 0 }
    | none => { l with cursor := c }

def maxKeyLength : Nat := 1024

def isStale (l : Layout) (k : PossibleKey) : Bool :=
  k.line != l.cursor.line || decide (maxKeyLength < l.cursor.index - k.index)

/-- Gives up the keys that can be keys no more, unless they had to become keys. -/
def dropStale (l : Layout) : Except YamlError Layout :=
  if l.keys.any (fun k => l.isStale k.2 && k.2.required) then malformed
  else .ok { l with keys := l.keys.filter fun k => !l.isStale k.2 }

def keyHere? (l : Layout) : Option PossibleKey := l.keys.lookup l.flow

def withoutKey (l : Layout) : Layout := { l with keys := l.keys.filter (·.1 != l.flow) }

def dropKey (l : Layout) : Except YamlError Layout :=
  match l.keyHere? with
  | some k => if k.required then malformed else .ok l.withoutKey
  | none => .ok l

def saveKey (l : Layout) : Except YamlError Layout :=
  let c := l.cursor
  if l.keyAllowed then
    l.dropKey.map fun l =>
      let required := l.flow == 0 && l.indent == (c.column : Int)
      { l with keys := (l.flow, ⟨l.tokens.length, required, c.index, c.line, c.column⟩) :: l.keys }
  else .ok l

def unwindFrom (column : Int) : Int → List Int → List Token → Int × List Int × List Token
  | indent, [], ts => (indent, [], ts)
  | indent, i :: outer, ts =>
    if column < indent then unwindFrom column i outer (ts ++ [.blockEnd])
      else (indent, i :: outer, ts)

def unwind (column : Int) (l : Layout) : Layout :=
  if l.flow == 0 then
    let (indent, outer, tokens) := unwindFrom column l.indent l.outer l.tokens
    { l with indent := indent, outer := outer, tokens := tokens }
  else l

def openBlock (column place : Nat) (t : Token) (l : Layout) : Layout :=
  if l.indent < (column : Int) then
    { l.insert place t with indent := column, outer := l.indent :: l.outer }
  else l

def allow (allowed : Bool) (l : Layout) : Layout := { l with keyAllowed := allowed }

def word (read : Cursor → Read Token) (l : Layout) : Except YamlError Layout :=
  l.saveKey.bind fun l => (read l.cursor).map fun (t, c) =>
    ({ l with cursor := c }.push t).allow false

/-- The markers that end all blocks: directives, document markers and the end of the text. -/
def endBlocks (l : Layout) : Except YamlError Layout := ((l.unwind (-1)).dropKey).map (allow false)

def openBracket (t : Token) (l : Layout) : Except YamlError Layout :=
  l.saveKey.map fun l => ({ l with flow := l.flow + 1 }.allow true).pushNext 1 t

def closeBracket (t : Token) (l : Layout) : Except YamlError Layout :=
  if l.flow == 0 then malformed
  else l.dropKey.map fun l => ({ l with flow := l.flow - 1 }.allow false).pushNext 1 t

def comma (l : Layout) : Except YamlError Layout :=
  l.dropKey.map fun l => (l.allow true).pushNext 1 .flowEntry

/-- Opens a block at the cursor if the innermost block is further left; only where a key may
stand. -/
def blockHere (t : Token) (l : Layout) : Except YamlError Layout :=
  if l.flow != 0 then .ok l
  else if l.keyAllowed then .ok (l.openBlock l.cursor.column l.tokens.length t)
  else malformed

def entry (l : Layout) : Except YamlError Layout :=
  (l.blockHere .blockSequenceStart).bind fun l =>
    (l.allow true).dropKey.map (pushNext 1 .blockEntry)

def explicitKey (l : Layout) : Except YamlError Layout :=
  (l.blockHere .blockMappingStart).bind fun l =>
    (l.allow (l.flow == 0)).dropKey.map (pushNext 1 .key)

/-- A colon: the possible key before it becomes one, and outside brackets opens a block if it has
to. -/
def colon (l : Layout) : Except YamlError Layout :=
  match l.keyHere? with
  | some k =>
    let l := l.withoutKey.insert k.token .key
    let l := if l.flow == 0 then l.openBlock k.column k.token .blockMappingStart else l
    .ok ((l.allow false).pushNext 1 .value)
  | none =>
    (l.blockHere .blockMappingStart).bind fun l =>
      (l.allow (l.flow == 0)).dropKey.map (pushNext 1 .value)

def blockScalar (fold : Bool) (l : Layout) : Except YamlError Layout :=
  (l.allow true).dropKey.bind fun l =>
    (block? fold l.indent l.cursor).map fun (cs, c) =>
      { l with cursor := c }.push (.scalar cs false)

def quotedScalar (double : Bool) (l : Layout) : Except YamlError Layout :=
  l.word fun c => (quoted? double (c.rest.length + 1) c.next).map fun (cs, c) =>
    (.scalar cs false, c)

/-- A plain scalar. If its last gap holds a line break, the next line may start with a key. -/
def plainScalar (l : Layout) : Except YamlError Layout :=
  l.saveKey.map fun l =>
    let (cs, broken, c) :=
      plain (l.flow != 0) (l.indent + 1) (l.cursor.rest.length + 1) [] false l.cursor
    ({ l with cursor := c }.push (.scalar cs true)).allow broken

def token (l : Layout) : Except YamlError Layout :=
  let c := l.cursor
  let flow := l.flow != 0
  let indicates := flow || isGap (c.peekAt 1)
  match c.peek with
  | '[' => l.openBracket .flowSequenceStart
  | '\x7b' => l.openBracket .flowMappingStart
  | ']' => l.closeBracket .flowSequenceEnd
  | '\x7d' => l.closeBracket .flowMappingEnd
  | ',' => l.comma
  | '*' => l.word fun c => (name? c).map fun (n, c) => (.alias n, c)
  | '&' => l.word fun c => (name? c).map fun (n, c) => (.anchor n, c)
  | '!' => l.word fun c => (tag? c).map fun (t, c) => (.tag t, c)
  | '\x27' => l.quotedScalar false
  | '\x22' => l.quotedScalar true
  | ch =>
    if ch == '-' && isGap (c.peekAt 1) then l.entry
    else if ch == '?' && indicates then l.explicitKey
    else if ch == ':' && indicates then l.colon
    else if ch == '|' && !flow then l.blockScalar false
    else if ch == '>' && !flow then l.blockScalar true
    else if startsPlain flow c then l.plainScalar
    else malformed

def next (l : Layout) : Except YamlError Layout :=
  (l.toNext (l.cursor.rest.length + 1)).dropStale.bind fun l =>
    let l := l.unwind l.cursor.column
    let c := l.cursor
    if isEnd c.peek then l.endBlocks.map (push .streamEnd)
    else if c.peek == '%' && c.column == 0 then
      l.endBlocks.bind fun l => (directive? c).map fun (d, c) =>
        { l with cursor := c }.push (.directive d)
    else if c.atMarker '-' then l.endBlocks.map (pushNext 3 .documentStart)
    else if c.atMarker '.' then l.endBlocks.map (pushNext 3 .documentEnd)
    else l.token

/-- The words that no longer wait for a colon to become keys. Only they have left the layout. -/
def settled (l : Layout) : List Token :=
  match (l.keys.filter fun k => !l.isStale k.2).map (·.2.token) with
  | [] => l.tokens
  | n :: ns => l.tokens.take (ns.foldl min n)

end Layout

/-- The tokens of a text as far as they can be told, and why there are no more of them. -/
structure TokenStream where
  tokens : List Token
  failure : YamlError
deriving DecidableEq, Repr

namespace Layout

/-- Where a text is cut short, what it might go on with. A step that fails whatever follows does not
depend on the cut. -/
def continuations : List (List Char) := ["\x22", "'", " x", "\n"].map String.toList

def failsAnyway (l : Layout) : Bool :=
  continuations.all fun cs =>
    match ({ l with cursor := { l.cursor with rest := l.cursor.rest ++ cs } }).next with
    | .ok _ => false
    | .error _ => true

/-- The number of characters that have to follow a token before it is handed on. -/
def lookahead : Nat := 2

/-- The step from one state to the next. A text that is cut short by a fault goes no further than
the cut. -/
def nextWithin (cut : Option Fault) (l : Layout) : Except YamlError Layout :=
  match cut, l.next with
  | none, r => r
  | some f, .ok next => if next.cursor.rest.length < lookahead then .error (.fault f) else .ok next
  | some f, .error e => if l.failsAnyway then .error e else .error (.fault f)

/-- All tokens up to the end; each takes at least one character. -/
def streamFrom (cut : Option Fault) : Nat → Layout → TokenStream
  | 0, l => ⟨l.settled, .malformed⟩
  | fuel + 1, l =>
    match l.nextWithin cut with
    | .error e => ⟨l.settled, e⟩
    | .ok next => if next.tokens.getLast? == some .streamEnd then ⟨next.tokens, .malformed⟩
      else streamFrom cut fuel next

end Layout

def isAllowed (c : Char) : Bool :=
  let n := c.toNat
  n == 0x9 || n == 0xA || n == 0xD || (0x20 ≤ n && n ≤ 0x7E) || n == 0x85 ||
    (0xA0 ≤ n && n ≤ 0xD7FF) ||
    (0xE000 ≤ n && n ≤ 0xFFFD) || 0x10000 ≤ n

def TokenStream.ofText (cs : List Char) (cut : Option Fault) : TokenStream :=
  if cs.all isAllowed then Layout.streamFrom cut (cs.length + 2) (Layout.start cs)
    else ⟨[], .malformed⟩

end SourceOutline.Yaml
