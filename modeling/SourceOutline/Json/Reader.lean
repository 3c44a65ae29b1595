import SourceOutline.Text.Digits
import SourceOutline.Text.Surrogate
import SourceOutline.Value

/-! Reading JSON. A repeated name keeps its first place and takes its last value. Beside the
standard's numbers the words `NaN`, `Infinity` and `-Infinity` are read. -/
namespace SourceOutline.Json

def isSpace (c : Char) : Bool := c == ' ' || c == '\n' || c == '\t' || c == '\r'

def skip (cs : List Char) : List Char := cs.dropWhile isSpace

def hexDigit? (c : Char) : Option Nat :=
  if c.isDigit then some (c.toNat - 0x30)
  else if 'a' ≤ c ∧ c ≤ 'f' then some (c.toNat - 0x57)
  else if 'A' ≤ c ∧ c ≤ 'F' then some (c.toNat - 0x37)
  else none

def hexValue? (cs : List Char) : Option Nat :=
  cs.foldl (fun n? c => n?.bind fun n => (hexDigit? c).map (16 * n + ·)) (some 0)

def plainEscape? : Char → Option Char
  | '\x22' => some '\x22'
  | '\\' => some '\\'
  | '/' => some '/'
  | 'b' => some '\x08'
  | 'f' => some '\x0c'
  | 'n' => some '\n'
  | 'r' => some '\r'
  | 't' => some '\t'
  | _ => none

/-- The code units of a string up to its closing quote, and what follows. A control character must
be escaped. -/
def stringUnits : List Char → Option (List Nat × List Char)
  | [] => none
  | '\x22' :: cs => some ([], cs)
  | '\\' :: 'u' :: a :: b :: c :: d :: cs =>
    (hexValue? [a, b, c, d]).bind fun n => (stringUnits cs).map fun (ns, rest) => (n :: ns, rest)
  | '\\' :: c :: cs =>
    (plainEscape? c).bind fun c => (stringUnits cs).map fun (ns, rest) => (c.toNat :: ns, rest)
  | c :: cs =>
    if c.toNat < 0x20 ∨ c == '\\' then none
    else (stringUnits cs).map fun (ns, rest) => (c.toNat :: ns, rest)

def isHighSurrogate (n : Nat) : Bool := decide (0xD800 ≤ n) && decide (n < 0xDC00)

def isLowSurrogate (n : Nat) : Bool := decide (0xDC00 ≤ n) && decide (n < 0xE000)

/-- Code units as characters: a high surrogate and the low one after it are one character. -/
def joinUnits : List Nat → List Char
  | [] => []
  | [n] => [Text.charOf n]
  | n :: k :: rest =>
    if isHighSurrogate n && isLowSurrogate k then
      Char.ofNat (0x10000 + (n - 0xD800) * 0x400 + (k - 0xDC00)) :: joinUnits rest
    else Text.charOf n :: joinUnits (k :: rest)

def string? (cs : List Char) : Option (String × List Char) :=
  (stringUnits cs).map fun (ns, rest) => (String.ofList (joinUnits ns), rest)

def digitsNumber (ds : List Char) : Nat := ds.foldl (fun n c => 10 * n + (c.toNat - 0x30)) 0

def fraction : List Char → List Char × List Char
  | '.' :: cs =>
    if (cs.takeWhile Char.isDigit).isEmpty then ([], '.' :: cs) else cs.span Char.isDigit
  | cs => ([], cs)

def exponentDigits (mark : Char) (negative : Bool) (cs unread : List Char) :
    Option Int × List Char :=
  match cs.span Char.isDigit with
  | ([], _) => (none, mark :: unread)
  | (ds, rest) => (some (if negative then -(digitsNumber ds : Int) else digitsNumber ds), rest)

def exponentAfter (mark : Char) : List Char → Option Int × List Char
  | '+' :: cs => exponentDigits mark false cs ('+' :: cs)
  | '-' :: cs => exponentDigits mark true cs ('-' :: cs)
  | cs => exponentDigits mark false cs cs

def exponent? : List Char → Option Int × List Char
  | 'e' :: cs => exponentAfter 'e' cs
  | 'E' :: cs => exponentAfter 'E' cs
  | cs => (none, cs)

/-- A number without its sign. With a fraction or an exponent it is a binary number, otherwise a
whole one. -/
def number? (negative : Bool) (cs : List Char) : Option (Value × List Char) :=
  let (whole, rest) := cs.span Char.isDigit
  if whole.isEmpty ∨ (whole.head? == some '0' ∧ whole.length ≠ 1) then none
  else
    let (frac, rest) := fraction rest
    let (exp, rest) := exponent? rest
    let n := digitsNumber (whole ++ frac)
    if frac.isEmpty ∧ exp.isNone then
      if Text.maxDigits < whole.length then none
      else some (.int (if negative then -(n : Int) else n), rest)
    else some (.real (Binary64.ofDecimal negative n (exp.getD 0 - frac.length)), rest)

/-- Why a text is no JSON: it is not well-formed, or it has more levels than are read. -/
inductive ReadError where
  | malformed
  | tooDeep (what : String)
deriving DecidableEq, Repr

def malformed : Except ReadError α := .error .malformed

def need : Option α → Except ReadError α
  | some a => .ok a
  | none => malformed

mutual

def value : Nat → Nat → List Char → Except ReadError (Value × List Char)
  | 0, _, _ => malformed
  | fuel + 1, levels, cs =>
    match skip cs with
    | '\x22' :: cs => (need (string? cs)).map fun (s, rest) => (.text s, rest)
    | '[' :: cs =>
      if levels == 0 then .error (.tooDeep "array")
      else match skip cs with
        | ']' :: rest => .ok (.list [], rest)
        | cs => (items fuel (levels - 1) cs).map fun (vs, rest) => (.list vs, rest)
    | '\x7b' :: cs =>
      if levels == 0 then .error (.tooDeep "object")
      else match skip cs with
        | '\x7d' :: rest => .ok (.map [], rest)
        | cs => (entries fuel (levels - 1) [] cs).map fun (es, rest) => (.map es, rest)
    | 'n' :: 'u' :: 'l' :: 'l' :: rest => .ok (.null, rest)
    | 't' :: 'r' :: 'u' :: 'e' :: rest => .ok (.bool true, rest)
    | 'f' :: 'a' :: 'l' :: 's' :: 'e' :: rest => .ok (.bool false, rest)
    | 'N' :: 'a' :: 'N' :: rest => .ok (.real .notANumber, rest)
    | 'I' :: 'n' :: 'f' :: 'i' :: 'n' :: 'i' :: 't' :: 'y' :: rest =>
      .ok (.real (.infinite false), rest)
    | '-' :: 'I' :: 'n' :: 'f' :: 'i' :: 'n' :: 'i' :: 't' :: 'y' :: rest =>
      .ok (.real (.infinite true), rest)
    | '-' :: cs => need (number? true cs)
    | cs => need (number? false cs)

def items : Nat → Nat → List Char → Except ReadError (List Value × List Char)
  | 0, _, _ => malformed
  | fuel + 1, levels, cs =>
    (value fuel levels cs).bind fun (v, rest) =>
      match skip rest with
      | ',' :: rest => (items fuel levels rest).map fun (vs, rest) => (v :: vs, rest)
      | ']' :: rest => .ok ([v], rest)
      | _ => malformed

def entries : Nat → Nat → Entries → List Char → Except ReadError (Entries × List Char)
  | 0, _, _, _ => malformed
  | fuel + 1, levels, done, cs =>
    match skip cs with
    | '\x22' :: cs =>
      (need (string? cs)).bind fun (name, rest) =>
        match skip rest with
        | ':' :: rest =>
          (value fuel levels rest).bind fun (v, rest) =>
            let done := Entries.put (.text name) v done
            match skip rest with
            | ',' :: rest => entries fuel levels done rest
            | '\x7d' :: rest => .ok (done, rest)
            | _ => malformed
        | _ => malformed
    | _ => malformed

end

/-- The value that a whole text is, with at most so many levels. Each level takes two steps and at
least one character. -/
def read (levels : Nat) (s : String) : Except ReadError Value :=
  let cs := s.toList
  (value (2 * cs.length + 2) levels cs).bind fun (v, rest) => if (skip rest).isEmpty then
    .ok v else malformed

def read? (s : String) : Option Value := (read s.length s).toOption

end SourceOutline.Json
