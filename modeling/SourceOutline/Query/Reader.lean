import SourceOutline.Query.Pattern
import SourceOutline.Query.Vocabulary
import SourceOutline.Text.Case
import SourceOutline.Text.LetterTable

/-! Reading queries. `(kind child …)` and `[option …]` are patterns, `_` is any node, `field:`
before a pattern names its field, `@tag` after a pattern tags it, and a semicolon opens a comment to
the end of the line. Whatever else stands in a text is a token of its own, so that the first flaw is
found by going through the tokens in order. -/
namespace SourceOutline.Query

inductive Token where
  | left
  | right
  | leftBracket
  | rightBracket
  | word (s : String)
  /-- A tag; its name is empty if no word follows the sign. -/
  | tag (s : String)
  | sign (c : Char)
deriving DecidableEq, Repr

structure Placed where
  token : Token
  offset : Nat
deriving DecidableEq, Repr

/-- The blanks of queries. Those that forbid a line break are not among them. -/
def isBlank (c : Char) : Bool :=
  let n := c.toNat
  (decide (0x09 ≤ n) && decide (n ≤ 0x0D)) ||
    (decide (0x2000 ≤ n) && decide (n ≤ 0x200A) && n != 0x2007) ||
    [0x20, 0x1680, 0x2028, 0x2029, 0x205F, 0x3000].contains n

def isLetter (c : Char) : Bool :=
  c.isAlphanum || (decide (0x80 ≤ c.toNat) && Text.inRanges Text.letterRanges c.toNat)

def startsWord (c : Char) : Bool := isLetter c || c == '_' || c == '-'

def isWordChar (c : Char) : Bool := startsWord c || c == '.'

/-- What the lexer is inside of: nothing, a comment, or a word or tag with its offset and its
letters so far, last first. -/
inductive LexState where
  | idle
  | comment
  | word (offset : Nat) (letters : List Char)
  | tag (offset : Nat) (letters : List Char)
deriving DecidableEq, Repr

def lexIdle (n : Nat) (c : Char) : LexState × List Placed :=
  if c == '(' then (.idle, [⟨.left, n⟩])
  else if c == ')' then (.idle, [⟨.right, n⟩])
  else if c == '[' then (.idle, [⟨.leftBracket, n⟩])
  else if c == ']' then (.idle, [⟨.rightBracket, n⟩])
  else if c == ';' then (.comment, [])
  else if c == '@' then (.tag n [], [])
  else if isBlank c then (.idle, [])
  else if startsWord c then (.word n [c], [])
  else (.idle, [⟨.sign c, n⟩])

def wordToken (offset : Nat) (letters : List Char) : Placed :=
  ⟨.word (String.ofList letters.reverse), offset⟩

def tagToken (offset : Nat) (letters : List Char) : Placed :=
  ⟨.tag (String.ofList letters.reverse), offset⟩

/-- The character at offset `n`. A null character ends a comment too, but is not part of it. -/
def lexStep (s : LexState) (n : Nat) (c : Char) : LexState × List Placed :=
  match s with
  | .idle => lexIdle n c
  | .comment =>
    if c == '\n' then (.idle, []) else if c == '\x00' then lexIdle n c else (.comment, [])
  | .word k letters =>
    if isWordChar c then (.word k (c :: letters), [])
    else
      let (next, ts) := lexIdle n c
      (next, wordToken k letters :: ts)
  | .tag k letters =>
    if startsWord c || (isWordChar c && !letters.isEmpty) then (.tag k (c :: letters), [])
    else
      let (next, ts) := lexIdle n c
      (next, tagToken k letters :: ts)

def lexFrom : LexState → Nat → List Char → List Placed
  | .word k letters, _, [] => [wordToken k letters]
  | .tag k letters, _, [] => [tagToken k letters]
  | _, _, [] => []
  | s, n, c :: cs =>
    let (s, ts) := lexStep s n c
    ts ++ lexFrom s (n + c.utf8Size) cs

def tokens (cs : List Char) : List Placed := lexFrom .idle 0 cs

inductive FlawCause where
  | malformed
  | unknownKind (name : String)
  | unknownField (name : String)
deriving DecidableEq, Repr

structure Flaw where
  cause : FlawCause
  offset : Nat
deriving DecidableEq, Repr

def offsetOf (stop : Nat) : List Placed → Nat
  | [] => stop
  | t :: _ => t.offset

def malformedAt (stop : Nat) (ts : List Placed) : Except Flaw α :=
  .error ⟨.malformed, offsetOf stop ts⟩

/-- The signs that say how often a pattern may occur. They do not change what is found. -/
def isQuantity (c : Char) : Bool := c == '?' || c == '*' || c == '+'

def takeTags : List Placed → Except Flaw (List String × List Placed)
  | ⟨.tag s, n⟩ :: ts =>
    if s.isEmpty then .error ⟨.malformed, n + 1⟩ else (takeTags ts).map fun (tags, rest) =>
      (s :: tags, rest)
  | ⟨.sign c, n⟩ :: ts => if isQuantity c then takeTags ts else .ok ([], ⟨.sign c, n⟩ :: ts)
  | ts => .ok ([], ts)

def testOf (word : String) : NodeTest := if word == "_" then .named else .kind word

def addTags (more : List String) : Pattern → Pattern
  | .node test children tags => .node test children (tags ++ more)
  | .choice options tags => .choice options (tags ++ more)
  | .field name p => .field name (addTags more p)

def withTags (p : Pattern) (ts : List Placed) : Except Flaw (Option (Pattern × List Placed)) :=
  (takeTags ts).map fun (tags, rest) => some (addTags tags p, rest)

mutual

def pattern (v : Vocabulary) (stop : Nat) :
    Nat → List Placed → Except Flaw (Option (Pattern × List Placed))
  | 0, ts => malformedAt stop ts
  | _ + 1, [] => malformedAt stop []
  | fuel + 1, t :: ts =>
    match t.token with
    | .right => .ok none
    | .rightBracket => .ok none
    | .leftBracket => (sequence v stop .rightBracket fuel ts).bind fun (ps, rest) =>
      if ps.isEmpty then malformedAt stop ts else withTags (.choice ps []) rest
    | .left => inParentheses v stop fuel ts
    | .word s =>
      match s.toList with
      | ['_'] => withTags (.node .any [] []) ts
      | '_' :: more =>
        withTags (.node .any [] []) (⟨.word (String.ofList more), t.offset + 1⟩ :: ts)
      | _ => inField v stop fuel s t.offset ts
    | _ => malformedAt stop (t :: ts)

/-- What follows an opening parenthesis: a kind and children, or one more pattern. -/
def inParentheses (v : Vocabulary) (stop : Nat) :
    Nat → List Placed → Except Flaw (Option (Pattern × List Placed))
  | 0, ts => malformedAt stop ts
  | _ + 1, [] => malformedAt stop []
  | fuel + 1, t :: ts =>
    match t.token with
    | .word kind =>
      if v.hasKind kind then
        (sequence v stop .right fuel ts).bind fun (cs, rest) =>
          withTags (.node (testOf kind) cs []) rest
      else .error ⟨.unknownKind kind, t.offset⟩
    | .left => inGroup v stop fuel (t :: ts)
    | .leftBracket => inGroup v stop fuel (t :: ts)
    | _ => malformedAt stop (t :: ts)

def inGroup (v : Vocabulary) (stop : Nat) :
    Nat → List Placed → Except Flaw (Option (Pattern × List Placed))
  | 0, ts => malformedAt stop ts
  | fuel + 1, ts => (sequence v stop .right fuel ts).bind fun (ps, rest) =>
    match ps with
    | [] => malformedAt stop ts
    | p :: _ => withTags p rest

/-- What follows the word at `offset`: a colon and a pattern that stands in that field. -/
def inField (v : Vocabulary) (stop : Nat) : Nat → String → Nat → List Placed →
    Except Flaw (Option (Pattern × List Placed))
  | fuel + 1, name, offset, ⟨.sign ':', _⟩ :: ts => (pattern v stop fuel ts).bind fun found =>
    match found with
    | none => malformedAt stop ts
    | some (p, rest) => if v.hasField name then .ok (some (.field name p, rest))
      else .error ⟨.unknownField name, offset⟩
  | _, _, offset, _ => .error ⟨.malformed, offset⟩

def sequence (v : Vocabulary) (stop : Nat) (close : Token) :
    Nat → List Placed → Except Flaw (List Pattern × List Placed)
  | 0, ts => malformedAt stop ts
  | fuel + 1, ts => (pattern v stop fuel ts).bind fun found =>
    match found with
    | some (p, rest) => (sequence v stop close fuel rest).map fun (ps, rest) => (p :: ps, rest)
    | none =>
      match ts with
      | t :: rest => if t.token == close then .ok ([], rest) else malformedAt stop ts
      | [] => malformedAt stop ts

end

def patterns (v : Vocabulary) (stop : Nat) : Nat → List Placed → Except Flaw Query
  | _, [] => .ok []
  | 0, ts => malformedAt stop ts
  | fuel + 1, ts => (pattern v stop fuel ts).bind fun found =>
    match found with
    | none => malformedAt stop ts
    | some (p, rest) => (patterns v stop fuel rest).map (p :: ·)

def byteLength (cs : List Char) : Nat := cs.foldl (fun n c => n + c.utf8Size) 0

/-- The query that a text holds. No character takes more than four steps. -/
def read (v : Vocabulary) (cs : List Char) : Except Flaw Query :=
  patterns v (byteLength cs) (4 * cs.length) (tokens cs)

def read? (text : String) : Option Query := (read .unlimited text.toList).toOption

end SourceOutline.Query
