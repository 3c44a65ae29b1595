import SourceOutline.Text.Blank
import SourceOutline.Text.DigitTable

/-! Reading whole numbers from text. A single underscore may stand between two digits, and leading
zeros are free. Which characters are digits and which ends are trimmed differs between readers, so
both are arguments. -/
namespace SourceOutline.Text

def asciiDigit? (c : Char) : Option Nat :=
  if c.isDigit then some (c.toNat - 0x30) else none

def digit? (c : Char) : Option Nat :=
  match asciiDigit? c with
  | some d => some d
  | none =>
    (digitZeros.find? fun z => decide (z ≤ c.toNat) && decide (c.toNat < z + 10)).map (c.toNat - ·)

def maxDigits : Nat := 4300

def moreDigits (digit? : Char → Option Nat) : Nat → List Char → Option Nat
  | n, [] => some n
  | n, '_' :: c :: cs => (digit? c).bind fun d => moreDigits digit? (10 * n + d) cs
  | n, c :: cs => (digit? c).bind fun d => moreDigits digit? (10 * n + d) cs

def natural? (digit? : Char → Option Nat) (cs : List Char) : Option Nat :=
  if maxDigits < cs.countP (· != '_') then none
  else match cs with
    | [] => none
    | c :: cs => (digit? c).bind fun d => moreDigits digit? d cs

def signed? (natural? : List Char → Option Nat) : List Char → Option Int
  | '+' :: cs => (natural? cs).map Int.ofNat
  | '-' :: cs => (natural? cs).map fun n => -(Int.ofNat n)
  | cs => (natural? cs).map Int.ofNat

def integer? (s : String) : Option Int :=
  signed? (natural? digit?) (trimChars s.toList)

end SourceOutline.Text
