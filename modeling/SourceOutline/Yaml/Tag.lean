import SourceOutline.Json.Reader
import SourceOutline.Text.Lines

/-! What a node of a document is said to be. A tag says it, or else the form of the text: a plain
scalar is a truth value, a number, null or a time when its text has the form of one. -/
namespace SourceOutline.Yaml

inductive Tag where
  | null
  | bool
  | int
  | real
  | bytes
  | time
  | text
  | sequence
  | mapping
  | set
  | orderedMap
  | pairs
  /-- The mark of entries that are taken over from other mappings. -/
  | merge
  /-- The mark of an entry that stands for the whole mapping. -/
  | default
  | unknown
deriving DecidableEq, Repr

def coreTag : String := "tag:yaml.org,2002:"

def Tag.names : List (String × Tag) :=
  [("null", .null), ("bool", .bool), ("int", .int), ("float", .real), ("binary", .bytes),
    ("timestamp", .time), ("str", .text),
   ("seq", .sequence), ("map", .mapping), ("set", .set), ("omap", .orderedMap), ("pairs", .pairs),
     ("merge", .merge),
   ("value", .default)]

def Tag.ofName (name : String) : Tag :=
  ((names.find? fun e => coreTag ++ e.1 == name).map (·.2)).getD .unknown

def isSign (c : Char) : Bool := c == '+' || c == '-'

def dropSign : List Char → List Char
  | c :: cs => if isSign c then cs else c :: cs
  | [] => []

def isDecimal (c : Char) : Bool := c.isDigit || c == '_'

def isOctal (c : Char) : Bool := ('0' ≤ c && c ≤ '7') || c == '_'

def isBinary (c : Char) : Bool := c == '0' || c == '1' || c == '_'

def isHex (c : Char) : Bool := (Json.hexDigit? c).isSome || c == '_'

def isDigits : List Char → Bool
  | c :: cs => c.isDigit && cs.all isDecimal
  | [] => false

def isCount (cs : List Char) : Bool := isDigits cs && cs.head? != some '0'

/-- A part of a number to the base sixty: one digit, or two up to fifty-nine. -/
def isSixty : List Char → Bool
  | [c] => c.isDigit
  | [a, b] => '0' ≤ a && a ≤ '5' && b.isDigit
  | _ => false

def isIntBody (cs : List Char) : Bool :=
  match cs with
  | ['0'] => true
  | '0' :: 'b' :: rest => !rest.isEmpty && rest.all isBinary
  | '0' :: 'x' :: rest => !rest.isEmpty && rest.all isHex
  | '0' :: rest => rest.all isOctal
  | _ =>
    match Text.cutAt ':' cs with
    | first :: rest => isCount first && rest.all isSixty
    | [] => false

def isInt (cs : List Char) : Bool := isIntBody (dropSign cs)

def isExponent : List Char → Bool
  | [] => true
  | e :: s :: ds => (e == 'e' || e == 'E') && isSign s && !ds.isEmpty && ds.all Char.isDigit
  | _ => false

def isPointed (cs : List Char) : Bool :=
  let (whole, rest) := cs.span isDecimal
  match rest with
  | '.' :: rest => isDigits whole && isExponent (rest.dropWhile isDecimal)
  | _ => false

def isFractionOnly : List Char → Bool
  | '.' :: c :: rest => c.isDigit && isExponent (rest.dropWhile isDecimal)
  | _ => false

def isSixtyReal (cs : List Char) : Bool :=
  match Text.cutAt '.' cs with
  | [whole, fraction] =>
    fraction.all isDecimal &&
      match Text.cutAt ':' whole with
      | first :: second :: rest => isDigits first && (second :: rest).all isSixty
      | _ => false
  | _ => false

def isReal (cs : List Char) : Bool :=
  isPointed (dropSign cs) || isFractionOnly cs || isSixtyReal (dropSign cs) ||
    [".inf", ".Inf", ".INF"].contains (String.ofList (dropSign cs)) ||
      [".nan", ".NaN", ".NAN"].contains (String.ofList cs)

structure TimeText where
  year : List Char
  month : List Char
  day : List Char
  /-- Hour, minute, second and fraction. -/
  clock : Option (List Char × List Char × List Char × List Char)
  zone : List Char

def isShort (cs : List Char) : Bool := (cs.length == 1 || cs.length == 2) && cs.all Char.isDigit

def isPair (cs : List Char) : Bool := cs.length == 2 && cs.all Char.isDigit

def isBlankChar (c : Char) : Bool := c == ' ' || c == '\t'

/-- A zone: nothing, `Z`, or a sign, hours and perhaps minutes. -/
def isZone : List Char → Bool
  | [] => true
  | ['Z'] => true
  | c :: cs =>
    isSign c && match Text.cutAt ':' cs with
      | [h] => isShort h
      | [h, m] => isShort h && isPair m
      | _ => false

def clock? (cs : List Char) :
    Option ((List Char × List Char × List Char × List Char) × List Char) :=
  let (hour, cs) := cs.span Char.isDigit
  match cs with
  | ':' :: a :: b :: ':' :: c :: d :: rest =>
    let (fraction, rest) := match rest with
      | '.' :: rest => rest.span Char.isDigit
      | _ => ([], rest)
    let zone := rest.dropWhile isBlankChar
    if isShort hour && isPair [a, b] && isPair [c, d] && isZone zone &&
      (rest.isEmpty || !zone.isEmpty) then
      some ((hour, [a, b], [c, d], fraction), zone)
    else none
  | _ => none

/-- The parts of a time: a date, or a date and a clock time with `T` or blanks between. -/
def timeText? (cs : List Char) : Option TimeText :=
  let (year, cs) := cs.span Char.isDigit
  match cs with
  | '-' :: cs =>
    let (month, cs) := cs.span Char.isDigit
    match cs with
    | '-' :: cs =>
      let (day, cs) := cs.span Char.isDigit
      if year.length == 4 && isShort month && isShort day then
        if cs.isEmpty then some ⟨year, month, day, none, []⟩
        else
          let body := match cs with
            | 'T' :: cs => cs
            | 't' :: cs => cs
            | cs => if (cs.head?.map isBlankChar).getD false then cs.dropWhile isBlankChar else []
          (clock? body).map fun (clock, zone) => ⟨year, month, day, some clock, zone⟩
      else none
    | _ => none
  | _ => none

def isTime (cs : List Char) : Bool :=
  match timeText? cs with
  | some t => t.clock.isSome || (isPair t.month && isPair t.day)
  | none => false

def truths : List (String × Bool) :=
  [("yes", true), ("no", false), ("true", true), ("false", false), ("on", true), ("off", false)]

def isSpelling (word cs : List Char) : Bool :=
  cs == word || cs == word.map Char.toUpper ||
    cs == (match word with
      | c :: rest => c.toUpper :: rest
      | [] => [])

/-- A text without one line feed at its end. A line feed alone stays. -/
def dropFinalFeed (cs : List Char) : List Char :=
  if cs.getLast? == some '\n' && decide (1 < cs.length) then cs.dropLast else cs

/-- What the form of a text says it is. A line feed at the end does not matter. -/
def formOf (text : List Char) : Tag :=
  let cs := dropFinalFeed text
  if truths.any fun t => isSpelling t.1.toList cs then .bool
  else if isReal cs then .real
  else if isInt cs then .int
  else if cs == ['<', '<'] then .merge
  else if cs.isEmpty || cs == ['~'] || isSpelling "null".toList cs then .null
  else if isTime cs then .time
  else if cs == ['='] then .default
  else .text

end SourceOutline.Yaml
