import SourceOutline.Yaml.Layout
import SourceOutline.Yaml.Tag

/-! The nodes of a YAML document: scalars, sequences and mappings, numbered in the order in which
they start. An alias is the number of the node that it names; since the node may be one around the
alias, nodes form a graph. -/
namespace SourceOutline.Yaml

inductive Body where
  | scalar (text : List Char)
  | sequence (items : List Nat)
  | mapping (entries : List (Nat × Nat))
deriving DecidableEq, Repr

structure Node where
  tag : Tag
  body : Body
deriving DecidableEq, Repr

instance : Inhabited Node := ⟨⟨.null, .scalar []⟩⟩

abbrev Graph := Array Node

namespace Graph

def node (g : Graph) (n : Nat) : Node := g.getD n default

def setBody (n : Nat) (b : Body) (g : Graph) : Graph :=
  g.modify n fun node => { node with body := b }

def setTag (n : Nat) (t : Tag) (g : Graph) : Graph := g.modify n fun node => { node with tag := t }

def entries (g : Graph) (n : Nat) : List (Nat × Nat) :=
  match (g.node n).body with
  | .mapping es => es
  | _ => []

end Graph

structure NodeState where
  rest : TokenStream
  anchors : List (String × Nat)
  graph : Graph

namespace NodeState

def head (s : NodeState) : Except YamlError Token :=
  match s.rest.tokens with
  | t :: _ => .ok t
  | [] => .error s.rest.failure

def tail (s : NodeState) : NodeState :=
  { s with rest := { s.rest with tokens := s.rest.tokens.drop 1 } }

def isAt (s : NodeState) (t : Token) : Except YamlError Bool := s.head.map (· == t)

def expect (t : Token) (s : NodeState) : Except YamlError NodeState :=
  s.head.bind fun h => if h == t then .ok s.tail else malformed

/-- Adds a node; an anchor's name must be new. -/
def add (anchor : Option String) (n : Node) (s : NodeState) : Except YamlError (Nat × NodeState) :=
  let id := s.graph.size
  let s := { s with graph := s.graph.push n }
  match anchor with
  | none => .ok (id, s)
  | some a =>
    if (s.anchors.lookup a).isSome then malformed
      else .ok (id, { s with anchors := (a, id) :: s.anchors })

def setBody (n : Nat) (b : Body) (s : NodeState) : NodeState :=
  { s with graph := s.graph.setBody n b }

def addEmpty (s : NodeState) : Except YamlError (Nat × NodeState) := s.add none ⟨.null, .scalar []⟩

end NodeState

def properties (s : NodeState) : Except YamlError (Option String × Option TagText × NodeState) := do
  match ← s.head with
  | .anchor a =>
    let s := s.tail
    match ← s.head with
    | .tag t => return (some a, some t, s.tail)
    | _ => return (some a, none, s)
  | .tag t =>
    let s := s.tail
    match ← s.head with
    | .anchor a => return (some a, some t, s.tail)
    | _ => return (none, some t, s)
  | _ => return (none, none, s)

/-- The whole name of a tag, its handle replaced; an unknown handle is an error. The tag `!` says
nothing. -/
def tagName (handles : List (String × String)) : Option TagText → Except YamlError (Option String)
  | none => .ok none
  | some ⟨none, s⟩ => .ok (some s)
  | some ⟨some h, s⟩ => (need (handles.lookup h)).map fun start => some (start ++ s)

/-- What a scalar is. With the tag `!` even a quoted one is understood by its form. -/
def scalarTag (name : Option String) (plain : Bool) (text : List Char) : Tag :=
  match name with
  | none => if plain then formOf text else .text
  | some "!" => formOf text
  | some t => .ofName t

def collectionTag (name : Option String) (standard : Tag) : Tag :=
  match name with
  | none => standard
  | some "!" => standard
  | some t => .ofName t

/-- Where a node stands: only block contexts hold blocks, and only mappings hold entries that are
not indented. -/
inductive Context where
  | flow
  | block
  | blockInMapping
deriving DecidableEq, Repr

/-- Nodes stand at most so deep one inside the other; each takes two calls. -/
def maxDepth : Nat := maxNesting / 2

def startCollection (room : Nat) (anchor : Option String) (n : Node) (s : NodeState) :
    Except YamlError (Nat × NodeState) :=
  if room == 0 then .error (.fault .tooDeep) else s.add anchor n

def startSequence (room : Nat) (anchor tag : Option String) :
    NodeState → Except YamlError (Nat × NodeState) :=
  startCollection room anchor ⟨collectionTag tag .sequence, .sequence []⟩

def startMapping (room : Nat) (anchor tag : Option String) :
    NodeState → Except YamlError (Nat × NodeState) :=
  startCollection room anchor ⟨collectionTag tag .mapping, .mapping []⟩

def endSequence (id : Nat) (items : Except YamlError (List Nat × NodeState)) :
    Except YamlError (Nat × NodeState) :=
  items.map fun (ns, s) => (id, s.setBody id (.sequence ns))

def endMapping (id : Nat) (entries : Except YamlError (List (Nat × Nat) × NodeState)) :
    Except YamlError (Nat × NodeState) :=
  entries.map fun (es, s) => (id, s.setBody id (.mapping es))

mutual

def node (handles : List (String × String)) :
    Nat → Nat → Context → NodeState → Except YamlError (Nat × NodeState)
  | 0, _, _, _ => malformed
  | fuel + 1, room, context, s => do
    match ← s.head with
    | .alias name => return (← need (s.anchors.lookup name), s.tail)
    | _ =>
      let (anchor, tag, s) ← properties s
      content handles fuel room context anchor (← tagName handles tag) s

def content (handles : List (String × String)) :
    Nat → Nat → Context → Option String → Option String → NodeState →
    Except YamlError (Nat × NodeState)
  | 0, _, _, _, _, _ => malformed
  | fuel + 1, room, context, anchor, tag, s => do
    match ← s.head with
    | .scalar text plain => s.tail.add anchor ⟨scalarTag tag plain text, .scalar text⟩
    | .flowSequenceStart =>
      let (id, s) ← startSequence room anchor tag s.tail
      endSequence id (flowItems handles fuel (room - 1) true s)
    | .flowMappingStart =>
      let (id, s) ← startMapping room anchor tag s.tail
      endMapping id (flowEntries handles fuel (room - 1) true s)
    | t =>
      if context == .blockInMapping && t == .blockEntry then
        let (id, s) ← startSequence room anchor tag s
        endSequence id (looseItems handles fuel (room - 1) s)
      else if context != .flow && t == .blockSequenceStart then
        let (id, s) ← startSequence room anchor tag s.tail
        endSequence id (blockItems handles fuel (room - 1) s)
      else if context != .flow && t == .blockMappingStart then
        let (id, s) ← startMapping room anchor tag s.tail
        endMapping id (blockEntries handles fuel (room - 1) s)
      else if anchor.isSome || tag.isSome then s.add anchor ⟨scalarTag tag true [], .scalar []⟩
      else malformed

def nodeUnless (handles : List (String × String)) : Nat → Nat → Context → List Token → NodeState →
    Except YamlError (Nat × NodeState)
  | 0, _, _, _, _ => malformed
  | fuel + 1, room, context, stops, s => s.head.bind fun t =>
    if stops.contains t then s.addEmpty else node handles fuel room context s

def valueAfter (handles : List (String × String)) : Nat → Nat → Context → List Token → NodeState →
    Except YamlError (Nat × NodeState)
  | 0, _, _, _, _ => malformed
  | fuel + 1, room, context, stops, s => s.head.bind fun t =>
    if t == .value then nodeUnless handles fuel room context stops s.tail else s.addEmpty

def blockItems (handles : List (String × String)) :
    Nat → Nat → NodeState → Except YamlError (List Nat × NodeState)
  | 0, _, _ => malformed
  | fuel + 1, room, s => do
    if ← s.isAt .blockEntry then
      let (n, s) ← nodeUnless handles fuel room .block [.blockEntry, .blockEnd] s.tail
      let (ns, s) ← blockItems handles fuel room s
      return (n :: ns, s)
    else return ([], ← s.expect .blockEnd)

/-- Entries that stand in the column of the mapping around them; they end at anything else. -/
def looseItems (handles : List (String × String)) :
    Nat → Nat → NodeState → Except YamlError (List Nat × NodeState)
  | 0, _, _ => malformed
  | fuel + 1, room, s => do
    if ← s.isAt .blockEntry then
      let (n, s) ← nodeUnless handles fuel room .block [.blockEntry, .key, .value, .blockEnd] s.tail
      let (ns, s) ← looseItems handles fuel room s
      return (n :: ns, s)
    else return ([], s)

def blockEntries (handles : List (String × String)) :
    Nat → Nat → NodeState → Except YamlError (List (Nat × Nat) × NodeState)
  | 0, _, _ => malformed
  | fuel + 1, room, s => do
    let stops := [Token.key, .value, .blockEnd]
    if ← s.isAt .key then
      let (k, s) ← nodeUnless handles fuel room .blockInMapping stops s.tail
      let (v, s) ← valueAfter handles fuel room .blockInMapping stops s
      let (es, s) ← blockEntries handles fuel room s
      return ((k, v) :: es, s)
    else return ([], ← s.expect .blockEnd)

/-- Items up to the closing bracket; before all but the first stands a comma, and one may follow the
last. -/
def flowItems (handles : List (String × String)) :
    Nat → Nat → Bool → NodeState → Except YamlError (List Nat × NodeState)
  | 0, _, _, _ => malformed
  | fuel + 1, room, first, s => do
    if ← s.isAt .flowSequenceEnd then return ([], s.tail)
    else
      let s ← if first then pure s else s.expect .flowEntry
      match ← s.head with
      | .key =>
        let (id, s) ← startMapping room none none s.tail
        let stops := [Token.flowEntry, .flowSequenceEnd]
        let (k, s) ← nodeUnless handles fuel (room - 1) .flow (.value :: stops) s
        let (v, s) ← valueAfter handles fuel (room - 1) .flow stops s
        let (ns, s) ← flowItems handles fuel room false (s.setBody id (.mapping [(k, v)]))
        return (id :: ns, s)
      | .flowSequenceEnd => return ([], s.tail)
      | _ =>
        let (n, s) ← node handles fuel room .flow s
        let (ns, s) ← flowItems handles fuel room false s
        return (n :: ns, s)

def flowEntries (handles : List (String × String)) : Nat → Nat → Bool → NodeState →
    Except YamlError (List (Nat × Nat) × NodeState)
  | 0, _, _, _ => malformed
  | fuel + 1, room, first, s => do
    if ← s.isAt .flowMappingEnd then return ([], s.tail)
    else
      let s ← if first then pure s else s.expect .flowEntry
      match ← s.head with
      | .key =>
        let (k, s) ← nodeUnless handles fuel room .flow [.value, .flowEntry, .flowMappingEnd] s.tail
        let (v, s) ← valueAfter handles fuel room .flow [.flowEntry, .flowMappingEnd] s
        let (es, s) ← flowEntries handles fuel room false s
        return ((k, v) :: es, s)
      | .flowMappingEnd => return ([], s.tail)
      | _ =>
        let (k, s) ← node handles fuel room .flow s
        let (v, s) ← s.addEmpty
        let (es, s) ← flowEntries handles fuel room false s
        return ((k, v) :: es, s)

end

def defaultHandles : List (String × String) := [("!", "!"), ("!!", coreTag)]

/-- The tag handles that directives define. A second version, another major version and a second
definition of a handle are errors. -/
def directives (versioned : Bool) (handles : List (String × String)) : List Token →
    Except YamlError (List (String × String) × List Token)
  | .directive (.version major) :: ts =>
    if versioned || major != 1 then malformed else directives true handles ts
  | .directive (.tag h start) :: ts =>
    if (handles.lookup h).isSome then malformed else directives versioned ((h, start) :: handles) ts
  | .directive .other :: ts => directives versioned handles ts
  | ts => .ok (handles ++ defaultHandles, ts)

def Token.isDirective : Token → Bool
  | .directive _ => true
  | _ => false

def TokenStream.checkOver (s : TokenStream) : Except YamlError Unit :=
  let rest := s.tokens.dropWhile (· == .documentEnd)
  match rest, rest.dropWhile Token.isDirective with
  | .streamEnd :: _, _ => .ok ()
  | _, [] => .error s.failure
  | _, _ => malformed

structure Document where
  graph : Graph
  root : Nat

def rootOf (handles : List (String × String)) (s : TokenStream) : Except YamlError Document := do
  let (n, state) ← node handles (8 * s.tokens.length + 8) maxDepth .block ⟨s, [], #[]⟩
  state.rest.checkOver
  return ⟨state.graph, n⟩

/-- A document after its marker. Without content it has an empty node. -/
def afterMarker (handles : List (String × String)) (s : TokenStream) : Except YamlError Document :=
  match s.tokens with
  | [] => .error s.failure
  | t :: _ =>
    if t.isDirective || [Token.documentStart, .documentEnd, .streamEnd].contains t then
      s.checkOver.map fun _ => ⟨#[⟨.null, .scalar []⟩], 0⟩
    else rootOf handles s

/-- The one document of a text. A text without any has an empty node. -/
def TokenStream.document (s : TokenStream) : Except YamlError Document :=
  match s.tokens with
  | [] => .error s.failure
  | .streamEnd :: _ => .ok ⟨#[⟨.null, .scalar []⟩], 0⟩
  | t :: _ =>
    if t.isDirective || t == .documentStart then do
      let (handles, ts) ← directives false [] s.tokens
      match ts with
      | [] => .error s.failure
      | .documentStart :: ts => afterMarker handles { s with tokens := ts }
      | _ => malformed
    else rootOf defaultHandles s

end SourceOutline.Yaml
