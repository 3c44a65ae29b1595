/-! How alike two texts are. The longest run that both share is set aside, then the same is done
with what stands before it in both and with what stands after it; the characters of all these runs
are the ones that agree. -/
namespace SourceOutline.Text

def sharedStart : List Char → List Char → Nat
  | a :: as, b :: bs => if a == b then sharedStart as bs + 1 else 0
  | _, _ => 0

structure SharedRun where
  first : Nat
  second : Nat
  length : Nat
deriving DecidableEq, Repr

def longestRun (as bs : List Char) : SharedRun :=
  (List.range as.length).foldl (fun best i => (List.range bs.length).foldl (fun best j =>
    let n := sharedStart (as.drop i) (bs.drop j)
    if best.length < n then ⟨i, j, n⟩ else best) best) ⟨0, 0, 0⟩

/-- The number of characters that agree. Every run takes at least one character of the first text
from the fuel. -/
def agreeingWithin : Nat → List Char → List Char → Nat
  | 0, _, _ => 0
  | fuel + 1, as, bs =>
    let r := longestRun as bs
    if r.length == 0 then 0
    else r.length + agreeingWithin fuel (as.take r.first) (bs.take r.second) +
      agreeingWithin fuel (as.drop (r.first + r.length)) (bs.drop (r.second + r.length))

def agreeing (as bs : List Char) : Nat := agreeingWithin as.length as bs

/-- How alike two texts are: twice the characters that agree, out of all characters. -/
structure Likeness where
  agreeing : Nat
  all : Nat
deriving DecidableEq, Repr

def likeness (s t : String) : Likeness := ⟨2 * agreeing s.toList t.toList, s.length + t.length⟩

namespace Likeness

def less (a b : Likeness) : Bool := decide (a.agreeing * b.all < b.agreeing * a.all)

def isClose (a : Likeness) : Bool := decide (3 * a.all ≤ 5 * a.agreeing)

end Likeness

def maxOffered : Nat := 3

/-- The texts closest to a word, in alphabetical order. Of equally close ones the last in that order
are kept. -/
def closest (word : String) (candidates : List String) : List String :=
  let close := (candidates.map fun s => (likeness s word, s)).filter (·.1.isClose)
  let best := close.mergeSort fun a b => b.1.less a.1 || (!a.1.less b.1 && !decide (a.2 < b.2))
  ((best.take maxOffered).map (·.2)).mergeSort fun a b => !decide (b < a)

end SourceOutline.Text
