import SourceOutline.Fault
import SourceOutline.Json.Reader
import SourceOutline.Settings.Model
import SourceOutline.Text.Case

/-! Settings from environment variables. `CODEOUTLINE__SECTION` holds a whole section as JSON;
`CODEOUTLINE__SECTION__KEY` holds one value of it and wins. Longer names make nested maps. How names
start, what separates keys and whether case matters can be set. -/
namespace SourceOutline

abbrev Environment := List (String × String)

/-- A section of the settings: its name and its fields. -/
structure Section where
  name : String
  fields : List String
deriving DecidableEq, Repr

def Section.all : List Section :=
  [⟨"logging", ["level", "outputs"]⟩, ⟨"extraction", ["min_lines", "max_workers"]⟩,
    ⟨"limits", ["max_files"]⟩]

def afterStart? : List Char → List Char → Option (List Char)
  | [], cs => some cs
  | _ :: _, [] => none
  | a :: as, c :: cs => if a == c then afterStart? as cs else none

/-- The pieces between separators, the first of them read so far in `piece`, last character
first. -/
def cutAround (separator : List Char) : Nat → List Char → List Char → List (List Char)
  | 0, piece, cs => [piece.reverse ++ cs]
  | _ + 1, piece, [] => [piece.reverse]
  | fuel + 1, piece, c :: cs =>
    match afterStart? separator (c :: cs) with
    | some rest => piece.reverse :: cutAround separator fuel [] rest
    | none => cutAround separator fuel (c :: piece) cs

structure EnvironmentRules where
  start : String
  /-- What stands between a section and its keys; without it there are whole sections only. -/
  separator : String
  exactCase : Bool
  /-- Whether an empty variable counts as absent. -/
  ignoreEmpty : Bool
  /-- The text that stands for null. -/
  nullText : Option String
  /-- Keys beyond this number are not told apart. -/
  maxKeys : Option Nat
deriving DecidableEq, Repr

def EnvironmentRules.standard : EnvironmentRules :=
  ⟨"CODEOUTLINE__", "__", false, false, none, none⟩

inductive EnvironmentError where
  | unreadable (sec : String)
  | fault (f : Fault)
deriving DecidableEq, Repr

/-- Sets the value under nested keys. A key that holds something other than a map blocks the way. -/
def Entries.putAt (value : Value) : List String → Entries → Entries
  | [], es => es
  | [k], es => es.put (.text k) value
  | k :: ks, es =>
    match es.get? k with
    | some (.map inner) => es.put (.text k) (.map (Entries.putAt value ks inner))
    | some _ => es
    | none => es.put (.text k) (.map (Entries.putAt value ks []))

namespace Environment

def assign (name value : String) : Environment → Environment
  | [] => [(name, value)]
  | (n, v) :: rest => if n == name then (n, value) :: rest else (n, v) :: assign name value rest

def spelling (r : EnvironmentRules) (name : String) : String :=
  if r.exactCase then name else Text.lower name

/-- Names as they are compared; of several spellings the last counts, at the place of the first. -/
def normal (r : EnvironmentRules) (env : Environment) : Environment :=
  let given := if r.ignoreEmpty then env.filter (!·.2.isEmpty) else env
  given.foldl (fun done e => assign (spelling r e.1) e.2 done) []

def sectionName (r : EnvironmentRules) (sec : Section) : String := spelling r (r.start ++ sec.name)

def valueOf (r : EnvironmentRules) (text : String) : Value :=
  if r.nullText == some text then .null else .text text

def limitKeys (r : EnvironmentRules) (keys : List String) : List String :=
  match r.maxKeys with
  | none => keys
  | some n =>
    if keys.length ≤ n then keys else keys.take n ++ [r.separator.intercalate (keys.drop n)]

def keysIn? (r : EnvironmentRules) (sec : Section) (name : String) : Option (List String) :=
  if r.separator.isEmpty then none
  else (afterStart? (sectionName r sec ++ r.separator).toList name.toList).map fun cs =>
    limitKeys r ((cutAround r.separator.toList (cs.length + 1) [] cs).map String.ofList)

def jsonOf (sec : Section) (text : String) : Except EnvironmentError Value :=
  (Json.read maxNesting text).mapError fun e => match e with
    | .malformed => .unreadable sec.name
    | .tooDeep what => .fault ⟨"RecursionError",
        s!"maximum recursion depth exceeded while decoding a JSON {what} from a unicode string"⟩

/-- The log outputs are the one field that is JSON by itself; an empty text stays as it is. -/
def isJsonField (sec : Section) (keys : List String) (value : String) : Bool :=
  sec.name == "logging" && keys == ["outputs"] && !value.isEmpty

def valuesOf (r : EnvironmentRules) (sec : Section) :
    Environment → Entries → Except EnvironmentError Entries
  | [], done => .ok done
  | (name, text) :: rest, done =>
    match keysIn? r sec name with
    | none => valuesOf r sec rest done
    | some keys =>
      let value := if isJsonField sec keys text && r.nullText != some text then jsonOf sec text
        else .ok (valueOf r text)
      value.bind fun v => valuesOf r sec rest (done.putAt v keys)

def respell (sec : Section) (es : Entries) : Entries :=
  es.foldl (fun done (k, v) =>
    let key := match k with
      | .text s => Scalar.text ((sec.fields.find? (· == Text.lower s)).getD s)
      | k => k
    Entries.put key v done) []

def ofValues (r : EnvironmentRules) (sec : Section) (es : Entries) : Value :=
  .map (if r.exactCase then es else respell sec es)

/-- A section as the environment gives it. JSON null gives nothing, and JSON that is no map stands
for the whole. -/
def sectionValue (r : EnvironmentRules) (env : Environment) (sec : Section) :
    Except EnvironmentError (Option Value) :=
  match env.lookup (sectionName r sec) with
  | none =>
    (valuesOf r sec env []).map fun es => if es.isEmpty then none else some (ofValues r sec es)
  | some text =>
    if r.nullText == some text then .ok none
    else (jsonOf sec text).bind fun v =>
      match v with
      | .scalar .null => .ok none
      | .map base => do
        let merged ← (Entries.merge maxNesting base (← valuesOf r sec env [])).mapError .fault
        return some (ofValues r sec merged)
      | v => .ok (some v)

def sectionsOf (r : EnvironmentRules) (env : Environment) :
    List Section → Except EnvironmentError Entries
  | [] => .ok []
  | sec :: rest => (sectionValue r env sec).bind fun v => (sectionsOf r env rest).map fun es =>
    match v with
    | some v => (.text sec.name, v) :: es
    | none => es

def settings (env : Environment) (r : EnvironmentRules) : Except EnvironmentError Entries :=
  sectionsOf r (normal r env) Section.all

end Environment

end SourceOutline
