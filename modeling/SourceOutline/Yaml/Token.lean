import SourceOutline.Fault
import SourceOutline.Json.Reader
import SourceOutline.Text.Utf8
import SourceOutline.Yaml.Cursor

/-! The words of YAML: scalars in their five styles, anchors, aliases, tags and directives. -/
namespace SourceOutline.Yaml

/-- Why a text has no value: it is no document, or something in it is not what it is said to be. -/
inductive YamlError where
  | malformed
  | fault (f : Fault)
deriving DecidableEq, Repr

def malformed : Except YamlError α := .error .malformed

def need : Option α → Except YamlError α
  | some a => .ok a
  | none => malformed

/-- A tag as it is written: a handle, which directives may define, and a suffix. -/
structure TagText where
  handle : Option String
  suffix : String
deriving DecidableEq, Repr

inductive Directive where
  | version (major : Nat)
  | tag (handle start : String)
  | other
deriving DecidableEq, Repr

inductive Token where
  | streamEnd
  | directive (d : Directive)
  | documentStart
  | documentEnd
  | blockSequenceStart
  | blockMappingStart
  | blockEnd
  | flowSequenceStart
  | flowSequenceEnd
  | flowMappingStart
  | flowMappingEnd
  | blockEntry
  | flowEntry
  | key
  | value
  | alias (name : String)
  | anchor (name : String)
  | tag (t : TagText)
  | scalar (text : List Char) (plain : Bool)
deriving DecidableEq, Repr

abbrev Read (α : Type) := Except YamlError (α × Cursor)

/-! ### Names -/

def name? (c : Cursor) : Read String :=
  let (word, c) := c.next.takeWhile isWordChar
  if word.isEmpty then malformed
  else if isGap c.peek || "?:,]\x7d%@\x60".toList.contains c.peek then .ok (String.ofList word, c)
  else malformed

def isUriChar (c : Char) : Bool := c.isAlphanum || "-;/?:@&=+$,_.!~*'()[]".toList.contains c

def uriBytes : Nat → Cursor → Read (List UInt8)
  | 0, c => .ok ([], c)
  | fuel + 1, c =>
    if c.peek == '%' then
      (need (Json.hexValue? [c.peekAt 1, c.peekAt 2])).bind fun n =>
        (uriBytes fuel (c.skip 3)).map fun (bs, c) => (n.toUInt8 :: bs, c)
    else .ok ([], c)

def uriParts : Nat → Cursor → Read (List Char)
  | 0, c => .ok ([], c)
  | fuel + 1, c =>
    if c.peek == '%' then
      (uriBytes c.rest.length c).bind fun (bs, c) =>
        if Text.Utf8.isWellFormed bs then
          (uriParts fuel c).map fun (cs, c) => (Text.Utf8.decodeChars bs ++ cs, c)
        else malformed
    else if isUriChar c.peek then
      let (run, c) := c.takeWhile isUriChar
      (uriParts fuel c).map fun (cs, c) => (run ++ cs, c)
    else .ok ([], c)

def uri? (c : Cursor) : Read String :=
  if isUriChar c.peek || c.peek == '%' then
    (uriParts (c.rest.length + 1) c).map fun (cs, c) => (String.ofList cs, c)
  else malformed

def handle? (c : Cursor) : Read String :=
  if c.peek != '!' then malformed
  else if c.peekAt 1 == ' ' then .ok ("!", c.next)
  else
    let (word, c) := c.next.takeWhile isWordChar
    if c.peek == '!' then .ok (String.ofList ('!' :: word ++ ['!']), c.next) else malformed

def tagText? (c : Cursor) : Read TagText :=
  if c.peekAt 1 == '<' then
    (uri? (c.skip 2)).bind fun (s, c) => if c.peek == '>' then .ok (⟨none, s⟩, c.next)
      else malformed
  else if isGap (c.peekAt 1) then .ok (⟨none, "!"⟩, c.next)
  else if (c.next.rest.takeWhile (!isNameEnd ·)).contains '!' then
    (handle? c).bind fun (h, c) => (uri? c).map fun (s, c) => (⟨some h, s⟩, c)
  else (uri? c.next).map fun (s, c) => (⟨some "!", s⟩, c)

def tag? (c : Cursor) : Read TagText :=
  (tagText? c).bind fun (t, c) => if isNameEnd c.peek then .ok (t, c) else malformed

/-! ### Directives -/

def endOfLine? (c : Cursor) : Except YamlError Cursor :=
  let c := c.skipSpaces
  let c := if c.peek == '#' then c.skipLine else c
  if isBreakOrEnd c.peek then .ok ((c.lineBreak?.map (·.2)).getD c) else malformed

def tooManyDigits (n : Nat) : Fault :=
  .badValue
    (s!"Exceeds the limit ({Text.maxDigits} digits) for integer string conversion: value has " ++
    s!"{n} digits; use sys.set_int_max_str_digits() to increase the limit")

def number? (c : Cursor) : Read Nat :=
  let (ds, c) := c.takeWhile Char.isDigit
  if ds.isEmpty then malformed
  else if Text.maxDigits < ds.length then .error (.fault (tooManyDigits ds.length))
  else .ok (Json.digitsNumber ds, c)

def version? (c : Cursor) : Read Directive :=
  (number? c.skipSpaces).bind fun (major, c) =>
    if c.peek == '.' then
      (number? c.next).bind fun (_, c) => if isNameEnd c.peek then .ok (.version major, c)
        else malformed
    else malformed

def tagDirective? (c : Cursor) : Read Directive :=
  (handle? c.skipSpaces).bind fun (h, c) =>
    if c.peek == ' ' then
      (uri? c.skipSpaces).bind fun (s, c) => if isNameEnd c.peek then
        .ok (.tag h s, c) else malformed
    else malformed

def directive? (c : Cursor) : Read Directive :=
  let (word, c) := c.next.takeWhile isWordChar
  if word.isEmpty || !isNameEnd c.peek then malformed
  else
    let body : Read Directive := if word == "YAML".toList then version? c
      else if word == "TAG".toList then tagDirective? c
      else .ok (.other, c.skipLine)
    body.bind fun (d, c) => (endOfLine? c).map fun c => (d, c)

/-! ### Quoted scalars -/

/-- Breaks and blanks between two lines of a quoted scalar, at most `fuel` lines. A document marker
may not stand there. -/
def quotedBreaks : Nat → Cursor → Read (List Char)
  | 0, c => .ok ([], c)
  | fuel + 1, c =>
    if c.atAnyMarker then malformed
    else
      let c := c.skipWhile fun ch => ch == ' ' || ch == '\t'
      match c.lineBreak? with
      | some (b, c) => (quotedBreaks fuel c).map fun (bs, c) => (b :: bs, c)
      | none => .ok ([], c)

/-- A break and what follows it, folded: a single break is a space, further breaks stand for
themselves. -/
def folded (b : Char) (more : List Char) : List Char :=
  if b != '\n' then b :: more
  else if more.isEmpty then [' ']
  else more

def escape? : Char → Option Char
  | '0' => some '\x00'
  | 'a' => some '\x07'
  | 'b' => some '\x08'
  | 't' => some '\t'
  | '\t' => some '\t'
  | 'n' => some '\n'
  | 'v' => some '\x0b'
  | 'f' => some '\x0c'
  | 'r' => some '\r'
  | 'e' => some '\x1b'
  | ' ' => some ' '
  | '\x22' => some '\x22'
  | '\\' => some '\\'
  | '/' => some '/'
  | 'N' => some '\x85'
  | '_' => some '\xA0'
  | 'L' => some '\u2028'
  | 'P' => some '\u2029'
  | _ => none

def codeSize? : Char → Option Nat
  | 'x' => some 2
  | 'u' => some 4
  | 'U' => some 8
  | _ => none

def codeChar (code : Nat) : Except YamlError Char :=
  if code < 0x110000 then .ok (Text.charOf code)
  else if code < 0x80000000 then .error (.fault (.badValue "chr() arg not in range(0x110000)"))
  else .error (.fault ⟨"OverflowError", "Python int too large to convert to C int"⟩)

def escaped? (c : Cursor) : Read Char :=
  match escape? c.peek with
  | some ch => .ok (ch, c.next)
  | none =>
    (need (codeSize? c.peek)).bind fun n =>
      (need (Json.hexValue? ((List.range n).map fun k => c.peekAt (k + 1)))).bind fun code =>
        (codeChar code).map fun ch => (ch, c.skip (n + 1))

def quoted? (double : Bool) : Nat → Cursor → Read (List Char)
  | 0, _ => malformed
  | fuel + 1, c =>
    let quote := if double then '\x22' else '\x27'
    if c.peek == quote then
      if !double && c.peekAt 1 == quote then (quoted? double fuel (c.skip 2)).map fun (cs, c) =>
        (quote :: cs, c)
      else .ok ([], c.next)
    else if double && c.peek == '\\' then
      if isBreak (c.peekAt 1) then
        (quotedBreaks c.rest.length c.next.next).bind fun (bs, c) =>
          (quoted? double fuel c).map fun (cs, c) => (bs ++ cs, c)
      else
        (escaped? c.next).bind fun (ch, c) => (quoted? double fuel c).map fun (cs, c) =>
          (ch :: cs, c)
    else if isEnd c.peek then malformed
    else if c.peek == ' ' || c.peek == '\t' || isBreak c.peek then
      let (blanks, c) := c.takeWhile fun ch => ch == ' ' || ch == '\t'
      match c.lineBreak? with
      | some (b, c) =>
        (quotedBreaks c.rest.length c).bind fun (bs, c) =>
          (quoted? double fuel c).map fun (cs, c) => (folded b bs ++ cs, c)
      | none => if isEnd c.peek then malformed else (quoted? double fuel c).map fun (cs, c) =>
        (blanks ++ cs, c)
    else (quoted? double fuel c.next).map fun (cs, d) => (c.peek :: cs, d)

/-! ### Block scalars -/

/-- What becomes of the breaks at the end of a block scalar. -/
inductive Chomping where
  | clip
  | strip
  | keep
deriving DecidableEq, Repr

def chomping? : Char → Option Chomping
  | '+' => some .keep
  | '-' => some .strip
  | _ => none

def increment? (c : Char) : Option Nat :=
  if c.isDigit && c != '0' then some (c.toNat - 0x30) else none

def blockHeader? (c : Cursor) : Read (Chomping × Option Nat) :=
  let (chomp, inc, c) := match chomping? c.peek with
    | some ch =>
      match increment? c.next.peek with
      | some n => (ch, some n, c.skip 2)
      | none => (ch, none, c.next)
    | none =>
      match increment? c.peek with
      | some n =>
        match chomping? c.next.peek with
        | some ch => (ch, some n, c.skip 2)
        | none => (.clip, some n, c.next)
      | none => (.clip, none, c)
  if isNameEnd c.peek then .ok ((chomp, inc), c) else malformed

/-- Blank lines before the first line of a block scalar, and the widest indentation among them and
that line. -/
def leadingBreaks : Nat → Nat → Cursor → List Char × Nat × Cursor
  | 0, widest, c => ([], widest, c)
  | fuel + 1, widest, c =>
    match c.lineBreak? with
    | some (b, c) =>
      let (bs, widest, c) := leadingBreaks fuel widest c
      (b :: bs, widest, c)
    | none =>
      if c.peek == ' ' then leadingBreaks fuel (max widest c.next.column) c.next
        else ([], widest, c)

def blockBreaks (indent : Nat) : Nat → Cursor → List Char × Cursor
  | 0, c => ([], c)
  | fuel + 1, c =>
    let c := c.skipSpacesTo indent
    match c.lineBreak? with
    | some (b, c) =>
      let (bs, c) := blockBreaks indent fuel c
      (b :: bs, c)
    | none => ([], c)

def inBlock (indent : Nat) (c : Cursor) : Bool := c.column == indent && !isEnd c.peek

def isTextStart (c : Char) : Bool := c != ' ' && c != '\t'

def blockLines (fold : Bool) (chomp : Chomping) (indent : Nat) :
    Nat → List Char → Cursor → List Char × Cursor
  | 0, _, c => ([], c)
  | fuel + 1, before, c =>
    let starts := isTextStart c.peek
    let (line, c) := c.takeWhile (!isBreakOrEnd ·)
    let (b, c) := match c.lineBreak? with
      | some (b, c) => ([b], c)
      | none => ([], c)
    let (more, c) := blockBreaks indent (c.rest.length + 1) c
    if inBlock indent c then
      let joint := if fold && b == ['\n'] && starts && isTextStart c.peek then
        (if more.isEmpty then [' '] else []) else b
      let (rest, c) := blockLines fold chomp indent fuel more c
      (before ++ line ++ joint ++ rest, c)
    else
      let tail := match chomp with
        | .strip => []
        | .clip => b
        | .keep => b ++ more
      (before ++ line ++ tail, c)

def block? (fold : Bool) (outer : Int) (c : Cursor) : Read (List Char) :=
  (blockHeader? c.next).bind fun ((chomp, inc), c) =>
    (endOfLine? c).map fun c =>
      let least := (max 1 (outer + 1)).toNat
      let (before, indent, c) := match inc with
        | some n =>
          let indent := least + n - 1
          let (bs, c) := blockBreaks indent (c.rest.length + 1) c
          (bs, indent, c)
        | none =>
          let (bs, widest, c) := leadingBreaks (c.rest.length + 1) 0 c
          (bs, max least widest, c)
      if inBlock indent c then blockLines fold chomp indent (c.rest.length + 1) before c
      else (if chomp == .keep then before else [], c)

/-! ### Plain scalars -/

def startsPlain (flow : Bool) (c : Cursor) : Bool :=
  (!isGap c.peek && !("-?:,[]\x7b\x7d#&*!|>'\x22%@\x60".toList.contains c.peek)) ||
    (!isGap (c.peekAt 1) && (c.peek == '-' || (!flow && (c.peek == '?' || c.peek == ':'))))

def isFlowMark (c : Char) : Bool := ",[]\x7b\x7d".toList.contains c

def endsPlain (flow : Bool) (c next : Char) : Bool :=
  isGap c || (c == ':' && (isGap next || (flow && isFlowMark next))) ||
    (flow && (isFlowMark c || c == '?'))

def plainRun (flow : Bool) : List Char → Nat
  | [] => 0
  | c :: cs => if endsPlain flow c (cs.headD '\x00') then 0 else plainRun flow cs + 1

/-- Breaks and spaces between the lines of a plain scalar, or nothing when a document marker
follows. -/
def plainBreaks : Nat → Cursor → Option (List Char) × Cursor
  | 0, c => (some [], c)
  | fuel + 1, c =>
    if c.peek == ' ' then plainBreaks fuel c.next
    else match c.lineBreak? with
      | some (b, c) =>
        if c.atAnyMarker then (none, c)
        else
          let (bs, c) := plainBreaks fuel c
          (bs.map (b :: ·), c)
      | none => (some [], c)

/-- The gap after a run of a plain scalar, and whether it holds a line break. Without a gap the
scalar ends. -/
def plainGap (c : Cursor) : List Char × Bool × Cursor :=
  let (spaces, c) := c.takeWhile (· == ' ')
  match c.lineBreak? with
  | some (b, c) =>
    if c.atAnyMarker then ([], true, c)
    else match plainBreaks (c.rest.length + 1) c with
      | (some bs, c) => (folded b bs, true, c)
      | (none, c) => ([], true, c)
  | none => (spaces, false, c)

def plain (flow : Bool) (indent : Int) : Nat → List Char → Bool → Cursor → List Char × Bool × Cursor
  | 0, _, broken, c => ([], broken, c)
  | fuel + 1, gap, broken, c =>
    let n := plainRun flow c.rest
    if c.peek == '#' || n == 0 then ([], broken, c)
    else
      let run := gap ++ c.rest.take n
      let (gap, broken, c) := plainGap (c.skip n)
      if gap.isEmpty || c.peek == '#' || (!flow && decide ((c.column : Int) < indent))
        then (run, broken, c)
      else
        let (more, broken, c) := plain flow indent fuel gap broken c
        (run ++ more, broken, c)

end SourceOutline.Yaml
