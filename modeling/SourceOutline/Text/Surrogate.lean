/-! Lone surrogates. Escapes may name half of a surrogate pair without the other half. No character
is such a half, so a private character stands for it. Writing JSON and quoting look through the
stand-in, and so take each character of that private range for one; whatever else looks at
characters, such as the order and the length of names, sees the stand-in itself. -/
namespace SourceOutline.Text

def firstSurrogate : Nat := 0xD800

def surrogateCount : Nat := 0x800

def firstStandIn : Nat := 0x10F000

def isSurrogate (n : Nat) : Bool :=
  decide (firstSurrogate ≤ n) && decide (n < firstSurrogate + surrogateCount)

def charOf (n : Nat) : Char :=
  if isSurrogate n then Char.ofNat (firstStandIn + (n - firstSurrogate)) else Char.ofNat n

def isStandIn (c : Char) : Bool :=
  decide (firstStandIn ≤ c.toNat) && decide (c.toNat < firstStandIn + surrogateCount)

def codePoint (c : Char) : Nat :=
  if isStandIn c then firstSurrogate + (c.toNat - firstStandIn) else c.toNat

def isEncodable (s : String) : Bool := !s.toList.any isStandIn

end SourceOutline.Text
