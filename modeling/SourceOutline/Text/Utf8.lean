/-! UTF-8 text. Decoding never fails: every maximal part of an ill-formed sequence that could have
begun a character is replaced by one U+FFFD. The bytes still awaited are a state of their own, so
that decoding goes byte by byte. -/
namespace SourceOutline.Text.Utf8

abbrev Bytes := List UInt8

/-- What a started character awaits: the number of bytes, the bounds of the next one, and the bits
so far. -/
structure Pending where
  awaited : Nat
  low : Nat
  high : Nat
  bits : Nat
deriving DecidableEq, Repr

def replacement : Char := '\ufffd'

/-- A byte with no character pending: a character of its own, the start of a longer one, or
ill-formed. -/
def first (b : Nat) : List Char × Option Pending :=
  if b < 0x80 then ([Char.ofNat b], none)
  else if b < 0xC2 then ([replacement], none)
  else if b < 0xE0 then ([], some ⟨1, 0x80, 0xBF, b - 0xC0⟩)
  else if b == 0xE0 then ([], some ⟨2, 0xA0, 0xBF, 0⟩)
  else if b == 0xED then ([], some ⟨2, 0x80, 0x9F, 0xD⟩)
  else if b < 0xF0 then ([], some ⟨2, 0x80, 0xBF, b - 0xE0⟩)
  else if b == 0xF0 then ([], some ⟨3, 0x90, 0xBF, 0⟩)
  else if b < 0xF4 then ([], some ⟨3, 0x80, 0xBF, b - 0xF0⟩)
  else if b == 0xF4 then ([], some ⟨3, 0x80, 0x8F, 4⟩)
  else ([replacement], none)

/-- A byte after a started character: it goes on, is complete, or is given up before this byte. -/
def next (p : Pending) (b : Nat) : List Char × Option Pending :=
  if p.low ≤ b ∧ b ≤ p.high then
    let bits := p.bits * 64 + (b - 0x80)
    if p.awaited ≤ 1 then ([Char.ofNat bits], none)
      else ([], some ⟨p.awaited - 1, 0x80, 0xBF, bits⟩)
  else
    let (out, pending) := first b
    (replacement :: out, pending)

def step (pending : Option Pending) (b : UInt8) : List Char × Option Pending :=
  match pending with
  | none => first b.toNat
  | some p => next p b.toNat

/-- Decodes from a state on. A character that is still pending at the end is given up. -/
def decodeFrom : Option Pending → Bytes → List Char
  | none, [] => []
  | some _, [] => [replacement]
  | pending, b :: bs =>
    let (out, pending) := step pending b
    out ++ decodeFrom pending bs

def decodeChars (bs : Bytes) : List Char := decodeFrom none bs

def decode (bs : Bytes) : String := String.ofList (decodeChars bs)

def encode (s : String) : Bytes := s.toUTF8.toList

/-- Whether no part of the bytes is ill-formed; the replacement character itself may occur. -/
def isWellFormed (bs : Bytes) : Bool := encode (decode bs) == bs

end SourceOutline.Text.Utf8
