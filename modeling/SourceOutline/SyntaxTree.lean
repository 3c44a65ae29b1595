import SourceOutline.Capture

/-! Syntax trees. A node has a kind, perhaps a field name in its parent, the rows and bytes it
spans, and its children in order. The position of a node is its place in the pre-order of the whole
tree. -/
namespace SourceOutline

structure NodeInfo where
  kind : String
  field : Option String
  rows : LineRange
  bytes : Int × Int
  named : Bool
  missing : Bool
  hasError : Bool
deriving DecidableEq, Repr

inductive SyntaxTree where
  | node (info : NodeInfo) (children : List SyntaxTree)

instance : Inhabited SyntaxTree := ⟨.node ⟨"", none, ⟨0, 0⟩, (0, 0), false, false, false⟩ []⟩

/-- A node in its tree: where it stands and the rows of its parent. -/
structure Located where
  tree : SyntaxTree
  index : Nat
  depth : Nat
  parent : Option LineRange

namespace SyntaxTree

def info : SyntaxTree → NodeInfo
  | .node i _ => i

def children : SyntaxTree → List SyntaxTree
  | .node _ cs => cs

def errorKind : String := "ERROR"

mutual

def size : SyntaxTree → Nat
  | .node _ cs => 1 + sizeAll cs

def sizeAll : List SyntaxTree → Nat
  | [] => 0
  | t :: ts => t.size + sizeAll ts

end

theorem sizeAll_append (ts us : List SyntaxTree) :
    sizeAll (ts ++ us) = sizeAll ts + sizeAll us := by
  induction ts with
  | nil => simp [sizeAll]
  | cons t ts ih => simp [sizeAll, ih, Nat.add_assoc]

theorem sizeAll_reverse (ts : List SyntaxTree) : sizeAll ts.reverse = sizeAll ts := by
  induction ts with
  | nil => rfl
  | cons t ts ih => simp [sizeAll_append, sizeAll, ih, Nat.add_comm]

def isFault (t : SyntaxTree) : Bool := t.info.kind == errorKind || t.info.missing

end SyntaxTree

/-- A count of errors under way: how many there are so far, and the nodes still to be looked at, the
next one first. -/
structure ErrorCount where
  found : Nat
  pending : List SyntaxTree

namespace ErrorCount

/-- Looks at the next node. If it is marked to hold an error its children come next, the last of
them first. -/
def step : ErrorCount → ErrorCount
  | ⟨found, []⟩ => ⟨found, []⟩
  | ⟨found, t :: pending⟩ =>
    ⟨if t.isFault then found + 1 else found, if t.info.hasError then t.children.reverse ++ pending
      else pending⟩

theorem sizeAll_step (found : Nat) (t : SyntaxTree) (pending : List SyntaxTree) :
    SyntaxTree.sizeAll (step ⟨found, t :: pending⟩).pending < SyntaxTree.sizeAll
      (t :: pending) := by
  obtain ⟨info, children⟩ := t
  simp only [step, SyntaxTree.sizeAll, SyntaxTree.size, SyntaxTree.children]
  split
  · rw [SyntaxTree.sizeAll_append, SyntaxTree.sizeAll_reverse]
    omega
  · omega

def finish : ErrorCount → Nat
  | ⟨found, []⟩ => found
  | ⟨found, t :: pending⟩ => (step ⟨found, t :: pending⟩).finish
termination_by c => SyntaxTree.sizeAll c.pending
decreasing_by exact sizeAll_step found t pending

end ErrorCount

namespace SyntaxTree

/-- Error nodes and missing nodes, looking only into nodes that are marked to hold an error. -/
def faults (t : SyntaxTree) : Nat := ErrorCount.finish ⟨0, [t]⟩

/-- The number of errors of a whole tree: none unless its root is marked. -/
def errorCount (t : SyntaxTree) : Nat := if t.info.hasError then t.faults else 0

mutual

def preorder (parent : Option LineRange) (depth index : Nat) : SyntaxTree → List Located
  | .node i cs =>
    ⟨.node i cs, index, depth, parent⟩ :: preorderAll (some i.rows) (depth + 1) (index + 1) cs

def preorderAll (parent : Option LineRange) (depth index : Nat) : List SyntaxTree → List Located
  | [] => []
  | t :: ts => t.preorder parent depth index ++ preorderAll parent depth (index + t.size) ts

end

def nodes (t : SyntaxTree) : List Located := t.preorder none 0 0

end SyntaxTree

def Located.siblings (parent : LineRange) (depth index : Nat) : List SyntaxTree → List Located
  | [] => []
  | t :: ts => ⟨t, index, depth, some parent⟩ :: siblings parent depth (index + t.size) ts

def Located.children (n : Located) : List Located :=
  siblings n.tree.info.rows (n.depth + 1) (n.index + 1) n.tree.children

end SourceOutline
