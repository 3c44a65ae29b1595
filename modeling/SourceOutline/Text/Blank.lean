/-! Blank characters and trimming. Everything that asks for "white space" in this library asks
`isBlank`, so the set is written down once. -/
namespace SourceOutline.Text

/-- The blank characters: tab to carriage return, the four field separators, space, next line,
no-break space and the Unicode space, line and paragraph separators. The zero-width characters are
not blank. -/
def isBlank (c : Char) : Bool :=
  let n := c.toNat
  (9 ≤ n && n ≤ 13) || (28 ≤ n && n ≤ 32) || n == 0x85 || n == 0xA0 || n == 0x1680 ||
    (0x2000 ≤ n && n ≤ 0x200A) || n == 0x2028 || n == 0x2029 || n == 0x202F ||
      n == 0x205F || n == 0x3000

def dropRight (p : Char → Bool) (cs : List Char) : List Char :=
  (cs.reverse.dropWhile p).reverse

def trimBy (p : Char → Bool) (cs : List Char) : List Char :=
  dropRight p (cs.dropWhile p)

def trimChars (cs : List Char) : List Char :=
  trimBy isBlank cs

def trim (s : String) : String :=
  String.ofList (trimChars s.toList)

def allBlank (cs : List Char) : Bool :=
  cs.all isBlank

def occursIn (part : List Char) : List Char → Bool
  | [] => part.isEmpty
  | c :: cs => part.isPrefixOf (c :: cs) || occursIn part cs

def contains (s part : String) : Bool :=
  occursIn part.toList s.toList

@[simp] theorem dropRight_nil (p : Char → Bool) : dropRight p [] = [] := rfl

@[simp] theorem toList_trim (s : String) : (trim s).toList = trimChars s.toList := by
  simp [trim]

end SourceOutline.Text
