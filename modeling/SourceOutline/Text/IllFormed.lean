import SourceOutline.Text.Utf8

/-! Where UTF-8 text is ill-formed: the first part that is no character, and why. -/
namespace SourceOutline.Text.Utf8

inductive IllFormedReason where
  | start
  | continuation
  | cutShort
deriving DecidableEq, Repr

def IllFormedReason.text : IllFormedReason → String
  | .start => "invalid start byte"
  | .continuation => "invalid continuation byte"
  | .cutShort => "unexpected end of data"

/-- Bytes `first` to `last` are ill-formed; `byte` is the first of them. -/
structure IllFormed where
  byte : Nat
  first : Nat
  last : Nat
  reason : IllFormedReason
deriving DecidableEq, Repr

/-- A character that was started: its first byte, the place of that byte, and what it awaits. -/
structure Started where
  byte : Nat
  place : Nat
  pending : Pending

def illFormedFrom (n : Nat) : Option Started → Bytes → Option IllFormed
  | none, [] => none
  | some s, [] => some ⟨s.byte, s.place, n - 1, .cutShort⟩
  | none, b :: bs =>
    match first b.toNat with
    | (_, some p) => illFormedFrom (n + 1) (some ⟨b.toNat, n, p⟩) bs
    | (_, none) =>
      if b.toNat < 0x80 then illFormedFrom (n + 1) none bs else some ⟨b.toNat, n, n, .start⟩
  | some s, b :: bs =>
    if s.pending.low ≤ b.toNat ∧ b.toNat ≤ s.pending.high then
      illFormedFrom (n + 1) ((next s.pending b.toNat).2.map fun p => { s with pending := p }) bs
    else some ⟨s.byte, s.place, n - 1, .continuation⟩

def illFormed? (bs : Bytes) : Option IllFormed := illFormedFrom 0 none bs

def chunkSize : Nat := 8192

/-- Bytes that are not well-formed: what comes before the chunk with the flaw, and the flaw by its
place from there on. -/
structure Broken where
  before : Bytes
  flaw : IllFormed
deriving DecidableEq, Repr

/-- Goes on chunk by chunk. A character that a chunk starts and does not end, `carried`, belongs to
the next chunk; after the last byte there is one more chunk, which is empty. -/
def brokenFrom : Nat → Bytes → Bytes → Bytes → Option Broken
  | 0, _, _, _ => none
  | fuel + 1, done, carried, bs =>
    let chunk := carried ++ bs.take chunkSize
    match illFormed? chunk with
    | none => if bs.isEmpty then none else brokenFrom fuel (done ++ chunk) [] (bs.drop chunkSize)
    | some i =>
      if i.reason == .cutShort && !bs.isEmpty then
        brokenFrom fuel (done ++ chunk.take i.first) (chunk.drop i.first) (bs.drop chunkSize)
      else some ⟨done, i⟩

def broken? (bs : Bytes) : Option Broken := brokenFrom (bs.length / chunkSize + 3) [] [] bs

def IllFormed.message (i : IllFormed) : String :=
  let place := if i.first == i.last then
    s!"byte 0x{String.ofList (Nat.toDigits 16 i.byte)} in position {i.first}"
    else s!"bytes in position {i.first}-{i.last}"
  s!"'utf-8' codec can't decode {place}: {i.reason.text}"

end SourceOutline.Text.Utf8
