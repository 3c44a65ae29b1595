import SourceOutline.Yaml.Graph
import SourceOutline.Yaml.Scalar

/-! The value of a YAML document. Sequences and mappings are made empty first and filled one after
another in the order in which they were made, so that the outer ones are complete before the inner
ones, and what is wrong further out is found first. In a mapping the last value of a key counts and
its first place; the key `<<` takes over the entries of other mappings, over which the mapping's own
entries win. -/
namespace SourceOutline.Yaml

/-- What a node has become: a scalar, or a collection that is named by the node's number. -/
inductive Made where
  | scalar (s : Scalar)
  | collection (id : Nat)
deriving DecidableEq, Repr

inductive Filling where
  | list (items : List Made)
  | map (entries : List (Scalar × Made))
  | set (items : List Scalar)
  | pairs (items : List (Made × Made))
deriving DecidableEq, Repr

structure Build where
  graph : Graph
  made : List (Nat × Made)
  filled : List (Nat × Filling)
  /-- The collections that are still empty, in order. -/
  waiting : List Nat

abbrev Make := StateT Build (Except YamlError)

def refuse (e : YamlError) : Make α := fun _ => .error e

def nodeOf (n : Nat) : Make Node := do return (← get).graph.node n

/-- The text of a scalar. A mapping stands for the value under its mark for a default. -/
def textOf (g : Graph) : Nat → Nat → Except YamlError (List Char)
  | 0, _ => .error (.fault ⟨"RecursionError", "maximum recursion depth exceeded"⟩)
  | fuel + 1, n =>
    match (g.node n).body with
    | .scalar text => .ok text
    | .sequence _ => malformed
    | .mapping es =>
      match es.find? fun e => (g.node e.1).tag == .default with
      | some e => textOf g fuel e.2
      | none => malformed

def checkTime (n : Node) : Except YamlError Unit :=
  match n.tag, n.body with
  | .time, .mapping _ =>
    .error (.fault ⟨"TypeError", "expected string or bytes-like object, got 'list'"⟩)
  | _, _ => .ok ()

def isCollection (t : Tag) : Bool := [Tag.sequence, .mapping, .set, .orderedMap, .pairs].contains t

def makeScalar (g : Graph) (n : Nat) : Except YamlError Scalar := do
  let node := g.node n
  match scalarOf? node.tag [] with
  | none => malformed
  | some _ =>
    let text ← textOf g (g.size + 1) n
    checkTime node
    (scalarOf? node.tag text).getD malformed

/-- What a node becomes; a collection is filled later. A node becomes the same thing wherever it
stands. -/
def make (n : Nat) : Make Made := do
  let b ← get
  match b.made.lookup n with
  | some m => return m
  | none =>
    if isCollection (b.graph.node n).tag then
      set { b with made := (n, .collection n) :: b.made, waiting := b.waiting ++ [n] }
      return .collection n
    else
      match makeScalar b.graph n with
      | .error e => refuse e
      | .ok s =>
        set { b with made := (n, .scalar s) :: b.made }
        return .scalar s

def makeAll : List Nat → Make (List Made)
  | [] => return []
  | n :: ns => do
    let m ← make n
    return m :: (← makeAll ns)

mutual

/-- Takes over the entries that a mapping's marks for merging ask for. The marks are gone
afterwards. -/
def flatten : Nat → Nat → Make Unit
  | 0, _ => refuse .malformed
  | fuel + 1, n => do
    let merged ← flattenFrom fuel n 0 []
    modify fun b => { b with graph := b.graph.setBody n (.mapping (merged ++ b.graph.entries n)) }

/-- The entries to take over, from those already found and from the mapping's entries at `index` and
after. A mark for a default is from then on an ordinary key. -/
def flattenFrom : Nat → Nat → Nat → List (Nat × Nat) → Make (List (Nat × Nat))
  | 0, _, _, _ => refuse .malformed
  | fuel + 1, n, index, merged => do
    let es := (← get).graph.entries n
    match es[index]? with
    | none => return merged
    | some (k, v) =>
      match (← nodeOf k).tag with
      | .merge =>
        modify fun b => { b with graph := b.graph.setBody n (.mapping (es.eraseIdx index)) }
        match (← nodeOf v).body with
        | .mapping _ =>
          flatten fuel v
          flattenFrom fuel n index (merged ++ (← get).graph.entries v)
        | .sequence items =>
          flattenFrom fuel n index (merged ++ (← flattenAll fuel items).reverse.flatten)
        | .scalar _ => refuse .malformed
      | .default =>
        modify fun b => { b with graph := b.graph.setTag k .text }
        flattenFrom fuel n (index + 1) merged
      | _ => flattenFrom fuel n (index + 1) merged

def flattenAll : Nat → List Nat → Make (List (List (Nat × Nat)))
  | 0, _ => refuse .malformed
  | _ + 1, [] => return []
  | fuel + 1, n :: ns => do
    match (← nodeOf n).body with
    | .mapping _ =>
      flatten fuel n
      let es := (← get).graph.entries n
      return es :: (← flattenAll fuel ns)
    | _ => refuse .malformed

end

/-- Entries of a mapping after those done. Only scalars can be keys. -/
def makeEntries (done : List (Scalar × Made)) : List (Nat × Nat) → Make (List (Scalar × Made))
  | [] => return done
  | (k, v) :: rest => do
    match ← make k with
    | .collection _ => refuse .malformed
    | .scalar key =>
      let m ← make v
      makeEntries (putKey key m done) rest

def flattenSteps (g : Graph) : Nat := (g.size + 2) * (g.size + 2)

def fillMapping (n : Nat) : Make (List (Scalar × Made)) := do
  match (← nodeOf n).body with
  | .mapping _ =>
    flatten (flattenSteps (← get).graph) n
    makeEntries [] ((← get).graph.entries n)
  | _ => refuse .malformed

/-- Pairs: each item of a sequence is a mapping with one entry. -/
def makePairs : List Nat → Make (List (Made × Made))
  | [] => return []
  | n :: ns => do
    match (← nodeOf n).body with
    | .mapping [(k, v)] =>
      let a ← make k
      let b ← make v
      return (a, b) :: (← makePairs ns)
    | _ => refuse .malformed

def itemsOf (n : Nat) : Make (List Nat) := do
  match (← nodeOf n).body with
  | .sequence items => return items
  | _ => refuse .malformed

def fillingOf (n : Nat) : Make Filling := do
  match (← nodeOf n).tag with
  | .sequence => return .list (← makeAll (← itemsOf n))
  | .mapping => return .map (← fillMapping n)
  | .set => return .set ((← fillMapping n).map (·.1))
  | _ => return .pairs (← makePairs (← itemsOf n))

/-- Fills the collections that wait. Every node waits at most once. -/
def fillAll : Nat → Make Unit
  | 0 => return
  | fuel + 1 => do
    match (← get).waiting with
    | [] => return
    | n :: rest =>
      modify fun b => { b with waiting := rest }
      let filling ← fillingOf n
      modify fun b => { b with filled := (n, filling) :: b.filled }
      fillAll fuel

/-- How far outside the collection `id` is, of those around a place, the innermost first. -/
def levelsTo (id : Nat) (around : List (Option Nat)) : Option Nat := around.findIdx? (· == some id)

/-- The value of what was made, inside of the given collections. Each level of nesting takes one
step. -/
def valueOf (filled : List (Nat × Filling)) : Nat → List (Option Nat) → Made → Value
  | _, _, .scalar s => .scalar s
  | 0, _, .collection _ => .null
  | fuel + 1, around, .collection id =>
    let inside := some id :: around
    match levelsTo id around, filled.lookup id with
    | some levels, some (.map _) => .back levels false
    | some levels, some (.set _) => .back levels false
    | some levels, _ => .back levels true
    | none, some (.list ms) => .list (ms.map (valueOf filled fuel inside))
    | none, some (.map es) => .map (es.map fun e => (e.1, valueOf filled fuel inside e.2))
    | none, some (.set items) => .set items
    | none, some (.pairs ms) =>
      .list (ms.map fun m => .pair (valueOf filled fuel (none :: inside) m.1)
        (valueOf filled fuel (none :: inside) m.2))
    | none, none => .null

def Document.value (d : Document) : Except YamlError Value := do
  let steps := d.graph.size + 1
  let (m, b) ← (do
    let m ← make d.root
    fillAll steps
    return m : Make Made).run ⟨d.graph, [], [], []⟩
  return valueOf b.filled steps [] m

def unifyBreaks : List Char → List Char
  | [] => []
  | '\r' :: '\n' :: cs => '\n' :: unifyBreaks cs
  | '\r' :: cs => '\n' :: unifyBreaks cs
  | c :: cs => c :: unifyBreaks cs

/-- The value of a text that holds one document or none. The text may be cut short by a fault. -/
def read (s : String) (cut : Option Fault) : Except YamlError Value :=
  (TokenStream.ofText (unifyBreaks s.toList) cut).document.bind Document.value

end SourceOutline.Yaml
