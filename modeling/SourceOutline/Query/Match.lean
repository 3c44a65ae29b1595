import SourceOutline.Query.Trial

/-! Running a query over a syntax tree. Every way in which a pattern fits is a match, unless another
fit at the same root tells as much in time: a fit is held back while there are trials that tag its
nodes too and may still be completed, and of fits that meet only the one that tells more remains.
Matches come in the order in which they are settled; then the match whose root is nearer to the
tree's root comes first, then the earlier pattern. -/
namespace SourceOutline

/-- Whether a node comes before another in the text, the wider one of two that start together
first. -/
def Tagged.isBefore (a b : Tagged) : Bool :=
  decide (a.span.bytes.1 < b.span.bytes.1) ||
    (a.span.bytes.1 == b.span.bytes.1 && decide (b.span.bytes.2 < a.span.bytes.2))

/-- Whether tagged nodes are all among others, both gone through in the order of the text. -/
def includesTagged : List Tagged → List Tagged → Bool
  | _, [] => true
  | [], _ :: _ => false
  | a :: as, b :: bs =>
    if a.tag == b.tag && a.index == b.index then includesTagged as bs
    else if a.isBefore b then includesTagged as (b :: bs)
    else false

/-- One way in which a pattern fits: its tagged nodes, the time at which it is complete and the time
at which it is settled. -/
structure Fit where
  tagged : List Tagged
  last : Nat
  settled : Nat
deriving DecidableEq, Repr

def Trial.isOpenAt (t : Trial) (time : Nat) : Bool :=
  decide (t.last ≤ time) && t.till.any fun e => decide (time < e)

/-- The first time from `time` on at which no trial is open. `stop` is the next time at which a fit
can be settled. Each trial that is waited for is done with, so there are no more rounds than
trials. -/
def waitFor (trials : List Trial) (stop : Nat → Nat) : Nat → Nat → Nat
  | 0, time => time
  | n + 1, time =>
    match trials.find? (·.isOpenAt time) with
    | some t => waitFor trials stop n (stop (t.till.getD time))
    | none => time

/-- When a fit at a root can be settled: on entering a node, on coming to a node's text after its
children, on leaving a node above the root. -/
def settlingTimes (root : Located) (n : Located) : List Nat :=
  n.entered :: ((if n.hasTail then [n.childrenDone] else []) ++
    (if decide (n.depth < root.depth) || n.depth == 0 then [n.left] else []))

def nextStop (nodes : List Located) (root : Located) (time : Nat) : Nat :=
  ((nodes.flatMap (settlingTimes root)).filter fun t => decide (time ≤ t)).min?.getD time

def Trial.settle (nodes : List Located) (root : Located) (trials : List Trial) (t : Trial) : Fit :=
  let rivals := trials.filter fun o => o.till.isSome && includesTagged o.tagged t.tagged
  ⟨t.tagged, t.last, waitFor rivals (nextStop nodes root) rivals.length t.last⟩

def Pattern.fits (p : Pattern) (nodes : List Located) (root : Located) : List Fit :=
  let trials := p.trialsAt root
  ((trials.filter (·.till.isNone)).map (Trial.settle nodes root trials)).mergeSort fun a b =>
    decide (a.last ≤ b.last)

def Fit.repeats (f earlier : Fit) : Bool :=
  f.tagged == earlier.tagged && decide (f.last ≤ earlier.settled)

/-- Whether a fit tells less than one that is complete before this one is settled. -/
def Fit.isPartOf (f g : Fit) : Bool :=
  f.tagged != g.tagged && decide (f.last ≤ g.last) && decide (g.last ≤ f.settled) &&
    includesTagged g.tagged f.tagged

def dropRepeats (fits : List Fit) : List Fit :=
  fits.foldl (fun kept f => if kept.any f.repeats then kept else kept ++ [f]) []

def Fit.distinct (fits : List Fit) : List Fit :=
  dropRepeats (fits.filter fun f => !fits.any f.isPartOf)

/-- A match of a query: which pattern, and the tagged nodes by tag, tags in the order in which they
first occur. -/
structure QueryMatch where
  pattern : Nat
  groups : List (String × List NodeSpan)
deriving DecidableEq, Repr

def groupByTag (tagged : List Tagged) : List (String × List NodeSpan) :=
  (tagged.map (·.tag)).eraseDups.map fun t => (t, (tagged.filter (·.tag == t)).map (·.span))

structure RankedFit where
  fit : Fit
  depth : Nat
  pattern : Nat
deriving DecidableEq, Repr

def RankedFit.isBefore (a b : RankedFit) : Bool :=
  if a.fit.settled != b.fit.settled then decide (a.fit.settled < b.fit.settled)
  else if a.depth != b.depth then decide (a.depth < b.depth)
  else decide (a.pattern ≤ b.pattern)

def fitsAt (nodes : List Located) (n : Located) (i : Nat) : List Pattern → List RankedFit
  | [] => []
  | p :: ps =>
    (Fit.distinct (p.fits nodes n)).map (fun f => ⟨f, n.depth, i⟩) ++ fitsAt nodes n (i + 1) ps

def Query.search (q : Query) (t : SyntaxTree) : List QueryMatch :=
  let nodes := t.nodes
  ((nodes.flatMap fun n => fitsAt nodes n 0 q).mergeSort RankedFit.isBefore).map fun r =>
    ⟨r.pattern, groupByTag r.fit.tagged⟩

def Capture.ofNode (name : String) (n : NodeSpan) : Capture :=
  ⟨name, n.rows, some n.bytes, some ⟨n.rows, n.parent⟩⟩

def capturesOf (found : List QueryMatch) : List Capture :=
  found.flatMap fun m => m.groups.flatMap fun g => g.2.map (Capture.ofNode g.1)

end SourceOutline
