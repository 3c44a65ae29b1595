import SourceOutline.Query.Pattern
import SourceOutline.SyntaxTree

/-! Trying a pattern at a node of a syntax tree. The tree is walked from its root, each node before
its children. A trial tags nodes as the walk comes to them, and splits where there are several ways
on; it ends complete, or at the time at which no node is left that it could go on with. -/
namespace SourceOutline

/-! Times of the walk. Each node takes three: it is entered, its children are done, it is left. -/

/-- When a node is entered. All earlier nodes were entered by then, and those of them that are not
above it were left. -/
def Located.entered (n : Located) : Nat := 3 * n.index - 2 * n.depth

def Located.childrenDone (n : Located) : Nat := n.entered + 3 * n.tree.size - 2

def Located.left (n : Located) : Nat := n.entered + 3 * n.tree.size - 1

def Located.hasTail (n : Located) : Bool :=
  n.tree.children.getLast?.any fun c => decide (c.info.bytes.2 < n.tree.info.bytes.2)

/-- When a trial that waits for one of the given children of a node has seen them all. -/
def Located.endOf (n : Located) (rest : List Located) : Nat :=
  if n.hasTail then n.childrenDone
  else match rest.getLast? with
    | some m => m.entered
    | none => n.left

structure NodeSpan where
  rows : LineRange
  bytes : Int × Int
  parent : Option LineRange
deriving DecidableEq, Repr

def Located.span (n : Located) : NodeSpan := ⟨n.tree.info.rows, n.tree.info.bytes, n.parent⟩

/-- A tagged node: the tag, the position of the node and what a match tells of it. -/
structure Tagged where
  tag : String
  index : Nat
  span : NodeSpan
deriving DecidableEq, Repr

def maxTags : Nat := 3

def Located.tag (n : Located) (tags : List String) : List Tagged :=
  (tags.take maxTags).map fun t => ⟨t, n.index, n.span⟩

def Located.passes (n : Located) : NodeTest → Bool
  | .kind k => n.tree.info.named && n.tree.info.kind == k
  | .named => n.tree.info.named && n.tree.info.kind != SyntaxTree.errorKind
  | .any => n.tree.info.kind != SyntaxTree.errorKind

/-- A trial: the tagged nodes in the order of the pattern, the time at which it came to its last
node, and the time at which it is given up, which a complete trial never is. -/
structure Trial where
  tagged : List Tagged
  last : Nat
  till : Option Nat
deriving DecidableEq, Repr

def goOn (next : List Tagged → Nat → List Trial) (trials : List Trial) : List Trial :=
  trials.flatMap fun t => if t.till.isNone then next t.tagged t.last else [t]

def pickEach (passes : α → Bool) : List α → List (α × List α)
  | [] => []
  | a :: as => if passes a then (a, as) :: pickEach passes as else pickEach passes as

mutual

/-- The trials that wait for a pattern among siblings, the children of `n` that are left, and go on
by `next`. Tags of a choice around the pattern go with the pattern's own, after them. Options wait
side by side. A pattern without tags and children takes the first node it can, since the others
would tell nothing more. -/
def Pattern.trialsAmong :
    Pattern → List String → (Located → Bool) → (List Located → List Tagged → Nat → List Trial) →
    Located → List Located → List Tagged → Nat → List Trial
  | .node test children tags, outer, allowed, next, n, rest, tagged, last =>
    let found := pickEach (fun m => allowed m && m.passes test) rest
    let isPlain := children.isEmpty && (tags ++ outer).isEmpty
    let found := if isPlain then found.take 1 else found
    let till := match isPlain, found with
      | true, (m, _) :: _ => m.entered
      | _, _ => n.endOf rest
    ⟨tagged, last, some till⟩ :: found.flatMap fun (m, after) =>
      goOn (next after)
        (Pattern.trialsOf children m m.children (tagged ++ m.tag (tags ++ outer)) m.entered)
  | .choice options tags, outer, allowed, next, n, rest, tagged, last =>
    Pattern.trialsAmongAny options (tags ++ outer) allowed next n rest tagged last
  | .field name p, outer, allowed, next, n, rest, tagged, last =>
    p.trialsAmong outer (fun m => allowed m && m.tree.info.field == some name) next
      n rest tagged last

def Pattern.trialsAmongAny : List Pattern → List String → (Located → Bool) →
    (List Located → List Tagged → Nat → List Trial) → Located → List Located →
      List Tagged → Nat → List Trial
  | [], _, _, _, _, _, _, _ => []
  | p :: ps, outer, allowed, next, n, rest, tagged, last =>
    p.trialsAmong outer allowed next n rest tagged last ++
      Pattern.trialsAmongAny ps outer allowed next n rest tagged last

def Pattern.trialsOf : List Pattern → Located → List Located → List Tagged → Nat → List Trial
  | [], _, _, tagged, last => [⟨tagged, last, none⟩]
  | p :: ps, n, rest, tagged, last =>
    p.trialsAmong [] (fun _ => true) (Pattern.trialsOf ps n) n rest tagged last

end

structure SinglePattern where
  fields : List String
  test : NodeTest
  children : List Pattern
  tags : List String

mutual

def Pattern.singles : Pattern → List String → List SinglePattern
  | .node test children tags, outer => [⟨[], test, children, tags ++ outer⟩]
  | .choice options tags, outer => Pattern.singlesOfAny options (tags ++ outer)
  | .field name p, outer => (p.singles outer).map fun s => { s with fields := name :: s.fields }

def Pattern.singlesOfAny : List Pattern → List String → List SinglePattern
  | [], _ => []
  | p :: ps, outer => p.singles outer ++ Pattern.singlesOfAny ps outer

end

namespace SinglePattern

def fits (s : SinglePattern) (n : Located) : Bool :=
  n.passes s.test && s.fields.all fun f => n.tree.info.field == some f

def isOpen (s : SinglePattern) : Bool :=
  match s.test with
  | .kind _ => false
  | _ => true

def inOrder (ss : List SinglePattern) : List SinglePattern :=
  ss.filter isOpen ++ ss.filter (!·.isOpen)

/-- A pattern for any kind whose first child asks for a kind is begun at that child, once for
each. -/
def startsAtChild (s : SinglePattern) : Bool :=
  s.isOpen && s.children.head?.any fun c => (c.singles []).head?.any (!·.isOpen)

def trialsFrom (first : Pattern) (others : List Pattern) (n : Located) (tagged : List Tagged) :
    List Trial :=
  (pickEach (fun _ => true) n.children).flatMap fun (m, after) =>
    ((inOrder (first.singles [])).filter (·.fits m)).flatMap fun s =>
      goOn (Pattern.trialsOf others n after)
        (Pattern.trialsOf s.children m m.children (tagged ++ m.tag s.tags) m.entered)

def trialsAt (s : SinglePattern) (n : Located) : List Trial :=
  match s.startsAtChild, s.children with
  | true, first :: others => trialsFrom first others n (n.tag s.tags)
  | _, children => Pattern.trialsOf children n n.children (n.tag s.tags) n.entered

end SinglePattern

def Pattern.trialsAt (p : Pattern) (n : Located) : List Trial :=
  let ss := SinglePattern.inOrder ((p.singles []).filter (·.fits n))
  (ss.filter (!·.startsAtChild) ++ ss.filter (·.startsAtChild)).flatMap (·.trialsAt n)

end SourceOutline
