import SourceOutline.Calendar
import SourceOutline.Fault
import SourceOutline.Number.Binary64

/-! Values of settings, log fields and reports: scalars, lists and maps. A map keeps its entries in
the order in which their keys first came, and two keys that are equal as numbers are the same key.
Documents can also hold sets and pairs, and a list or map can lead back to one around it. -/
namespace SourceOutline

inductive Scalar where
  | null
  | bool (b : Bool)
  | int (n : Int)
  | real (x : Binary64)
  | text (s : String)
  | bytes (bs : List UInt8)
  | date (d : Date)
  | moment (m : Moment)
deriving DecidableEq, Repr

namespace Scalar

def whole? : Scalar → Option Int
  | .bool b => some (if b then 1 else 0)
  | .int n => some n
  | .real x => x.toInt?
  | _ => none

def same (a b : Scalar) : Bool :=
  match a, b with
  | .moment m, .moment n => m.same n
  | _, _ =>
    match a.whole?, b.whole? with
    | some m, some n => m == n
    | none, none => a == b
    | _, _ => false

end Scalar

inductive Value where
  | scalar (s : Scalar)
  | list (items : List Value)
  | map (entries : List (Scalar × Value))
  | set (items : List Scalar)
  | pair (first second : Value)
  /-- A collection around this place: the innermost is zero levels away. -/
  | back (levels : Nat) (isList : Bool)

abbrev Entries := List (Scalar × Value)

namespace Value

@[match_pattern] abbrev null : Value := .scalar .null
@[match_pattern] abbrev bool (b : Bool) : Value := .scalar (.bool b)
@[match_pattern] abbrev int (n : Int) : Value := .scalar (.int n)
@[match_pattern] abbrev real (x : Binary64) : Value := .scalar (.real x)
@[match_pattern] abbrev text (s : String) : Value := .scalar (.text s)

def isNull : Value → Bool
  | .null => true
  | _ => false

instance : Inhabited Value := ⟨.null⟩

instance : Coe String Value := ⟨.text⟩

end Value

/-- Sets what a key holds. A key that is there keeps its place and its spelling; a new key goes to
the end. -/
def putKey (key : Scalar) (a : α) : List (Scalar × α) → List (Scalar × α)
  | [] => [(key, a)]
  | e :: rest => if e.1.same key then (e.1, a) :: rest else e :: putKey key a rest

namespace Entries

def find? (entries : Entries) (key : Scalar) : Option Value :=
  (List.find? (fun e => e.1.same key) entries).map (·.2)

def get? (entries : Entries) (name : String) : Option Value :=
  find? entries (.text name)

abbrev put (key : Scalar) (value : Value) (entries : Entries) : Entries := putKey key value entries

def ofNames (fields : List (String × Value)) : Entries :=
  fields.map fun f => (.text f.1, f.2)

def names (entries : Entries) : List Scalar := entries.map (·.1)

end Entries

def Value.record (fields : List (String × Value)) : Value := .map (Entries.ofNames fields)

/-- What counts as no setting at all: null, false, zero, and whatever is empty. -/
def Value.isEmpty : Value → Bool
  | .scalar .null => true
  | .scalar (.bool b) => !b
  | .scalar (.int n) => n == 0
  | .scalar (.real x) => x.isZero
  | .scalar (.text s) => s.isEmpty
  | .scalar (.bytes bs) => bs.isEmpty
  | .scalar (.date _) => false
  | .scalar (.moment _) => false
  | .list items => items.isEmpty
  | .map entries => entries.isEmpty
  | .set items => items.isEmpty
  | .pair _ _ => false
  | .back _ _ => false

mutual

/-- A part of a value, `depth` levels below it, in which each way back to the whole leads to the
whole itself. -/
def Value.closed (whole : Value) (depth : Nat) : Value → Value
  | .back levels isList => if levels == depth then whole else .back levels isList
  | .list items => .list (Value.closedItems whole (depth + 1) items)
  | .map entries => .map (Value.closedEntries whole (depth + 1) entries)
  | .pair a b => .pair (Value.closed whole (depth + 1) a) (Value.closed whole (depth + 1) b)
  | v => v

def Value.closedItems (whole : Value) (depth : Nat) : List Value → List Value
  | [] => []
  | v :: vs => Value.closed whole depth v :: Value.closedItems whole depth vs

def Value.closedEntries (whole : Value) (depth : Nat) :
    List (Scalar × Value) → List (Scalar × Value)
  | [] => []
  | (k, v) :: es => (k, Value.closed whole depth v) :: Value.closedEntries whole depth es

end

def Value.entries? (v : Value) : Option Entries :=
  match v with
  | .map es => some (Value.closedEntries v 0 es)
  | _ => none

def Value.items? (v : Value) : Option (List Value) :=
  match v with
  | .list items => some (Value.closedItems v 0 items)
  | .set items => some (items.map .scalar)
  | _ => none

abbrev Merge := Value → Value → Except Fault Value

def Merge.onto (m : Merge) : Option Value → Value → Except Fault Value
  | some old, v => m old v
  | none, v => .ok v

namespace Entries

/-- The entries of the second map, each merged with what the first has under its key. -/
def combine (m : Merge) (base : Entries) : Entries → Except Fault Entries
  | [] => .ok []
  | (k, v) :: rest => (m.onto (base.find? k) v).bind fun merged =>
    (combine m base rest).map fun others => (k, merged) :: others

def putAll (base top : Entries) : Entries := top.foldl (fun done e => done.put e.1 e.2) base

def mergeBy (m : Merge) (base top : Entries) : Except Fault Entries :=
  (combine m base top).map (putAll base)

end Entries

/-- The second value over the first: maps are merged key by key, anything else is replaced. Each map
in a map takes one of `levels` calls, and ways back are followed, so maps that lead back to
themselves on both sides have no end. -/
def Value.merge : Nat → Value → Value → Except Fault Value
  | levels, base, top =>
    match base.entries?, top.entries? with
    | some bs, some ts =>
      match levels with
      | 0 => .error .tooDeep
      | levels + 1 => (Entries.mergeBy (Value.merge levels) bs ts).map .map
    | _, _ => .ok top

def Entries.merge (levels : Nat) (base top : Entries) : Except Fault Entries :=
  Entries.mergeBy (Value.merge levels) base top

end SourceOutline
