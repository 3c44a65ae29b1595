import SourceOutline.Text.Quoted
import SourceOutline.Value.Display

/-! Writing JSON, on one line or indented, with or without characters outside ASCII. -/
namespace SourceOutline.Json

structure Layout where
  /-- Blanks for each level; without them all stands on one line. -/
  indent : Option Nat
  asciiOnly : Bool

def unitEscape (n : Nat) : List Char := '\\' :: 'u' :: Text.hexDigits 4 n

def charEscape (c : Char) : List Char :=
  if Text.codePoint c < 0x10000 then unitEscape (Text.codePoint c)
  else
    let n := c.toNat - 0x10000
    unitEscape (0xD800 + n / 0x400) ++ unitEscape (0xDC00 + n % 0x400)

def stringChar (asciiOnly : Bool) (c : Char) : List Char :=
  match c with
  | '\x22' => ['\\', '\x22']
  | '\\' => ['\\', '\\']
  | '\n' => ['\\', 'n']
  | '\r' => ['\\', 'r']
  | '\t' => ['\\', 't']
  | '\x0c' => ['\\', 'f']
  | '\x08' => ['\\', 'b']
  | c => if c.toNat < 0x20 ∨ (asciiOnly ∧ 0x7E < c.toNat) then charEscape c else [c]

def string (asciiOnly : Bool) (s : String) : List Char :=
  '\x22' :: s.toList.flatMap (stringChar asciiOnly) ++ ['\x22']

def real : Binary64 → String
  | .infinite s => if s then "-Infinity" else "Infinity"
  | .notANumber => "NaN"
  | x => x.show

def scalar (l : Layout) : Scalar → List Char
  | .null => "null".toList
  | .bool b => (if b then "true" else "false").toList
  | .int n => (toString n).toList
  | .real x => (real x).toList
  | .text s => string l.asciiOnly s
  | s => string l.asciiOnly s.show

def key (l : Layout) : Scalar → List Char
  | .text s => string l.asciiOnly s
  | s => '\x22' :: scalar l s ++ ['\x22']

def Layout.newline (l : Layout) (level : Nat) : List Char :=
  match l.indent with
  | some n => '\n' :: List.replicate (n * level) ' '
  | none => []

def Layout.separator (l : Layout) (level : Nat) : List Char :=
  match l.indent with
  | some _ => ',' :: l.newline level
  | none => [',', ' ']

mutual

def write (l : Layout) (level : Nat) : Value → List Char
  | .scalar s => scalar l s
  | .list [] => ['[', ']']
  | .list (v :: vs) =>
    '[' :: l.newline (level + 1) ++ write l (level + 1) v ++ writeItems l (level + 1)
      vs ++ l.newline level ++ [']']
  | .map [] => ['\x7b', '\x7d']
  | .map ((k, v) :: es) =>
    '\x7b' :: l.newline (level + 1) ++ key l k ++ ':' :: ' ' :: write l (level + 1)
      v ++ writeEntries l (level + 1) es ++
      l.newline level ++ ['\x7d']
  | v => string l.asciiOnly v.show

def writeItems (l : Layout) (level : Nat) : List Value → List Char
  | [] => []
  | v :: vs => l.separator level ++ write l level v ++ writeItems l level vs

def writeEntries (l : Layout) (level : Nat) : List (Scalar × Value) → List Char
  | [] => []
  | (k, v) :: es =>
    l.separator level ++ key l k ++ ':' :: ' ' :: write l level v ++ writeEntries l level es

end

def render (l : Layout) (v : Value) : String := String.ofList (write l 0 v)

end SourceOutline.Json
