import SourceOutline.Fault
import SourceOutline.Outline.Synthesis
import SourceOutline.Path
import SourceOutline.Settings.Model
import SourceOutline.Text.Digits
import SourceOutline.Text.Surrogate
import SourceOutline.Text.Utf8

/-! Checking values against the settings. All issues are found, in the order of the fields, each
with its place and the value that is wrong there. Whole numbers may come as texts, as truth values
or as reals without a fraction. -/
namespace SourceOutline

inductive Problem where
  | notInt
  | notIntText
  | tooLong
  | fractional
  | notFinite
  | notText
  | notUnicode
  | notLevel
  | notFormat
  | notList
  | notModel (name : String)
  | refused (reason : String)
  | extra
deriving DecidableEq, Repr

namespace Problem

def kind : Problem → String
  | .notInt => "int_type"
  | .notIntText => "int_parsing"
  | .tooLong => "int_parsing_size"
  | .fractional => "int_from_float"
  | .notFinite => "finite_number"
  | .notText => "string_type"
  | .notUnicode => "string_unicode"
  | .notLevel => "literal_error"
  | .notFormat => "literal_error"
  | .notList => "list_type"
  | .notModel _ => "model_type"
  | .refused _ => "value_error"
  | .extra => "extra_forbidden"

def message : Problem → String
  | .notInt => "Input should be a valid integer"
  | .notIntText => "Input should be a valid integer, unable to parse string as an integer"
  | .tooLong => "Unable to parse input string as an integer, exceeded maximum size"
  | .fractional => "Input should be a valid integer, got a number with a fractional part"
  | .notFinite => "Input should be a finite number"
  | .notText => "Input should be a valid string"
  | .notUnicode => "Input should be a valid string, unable to parse raw data as a unicode string"
  | .notLevel => "Input should be 'DEBUG', 'INFO', 'WARNING', 'ERROR' or 'CRITICAL'"
  | .notFormat => "Input should be 'json' or 'console'"
  | .notList => "Input should be a valid list"
  | .notModel name => s!"Input should be a valid dictionary or instance of {name}"
  | .refused reason => "Value error, " ++ reason
  | .extra => "Extra inputs are not permitted"

end Problem

inductive Step where
  | field (name : String)
  | item (index : Nat)
deriving DecidableEq, Repr

def Step.text : Step → String
  | .field name => name
  | .item index => toString index

structure Issue where
  place : List Step
  problem : Problem
  input : Value

def Issue.path (i : Issue) : String := ".".intercalate (i.place.map Step.text)

/-- What a check comes to. A fault ends the check, whatever issues there are. -/
inductive Checked (α : Type) where
  | good (a : α)
  | bad (issues : List Issue)
  | fault (f : Fault)

namespace Checked

def issue (problem : Problem) (input : Value) : Checked α := .bad [⟨[], problem, input⟩]

def map (f : α → β) : Checked α → Checked β
  | .good a => .good (f a)
  | .bad issues => .bad issues
  | .fault e => .fault e

def bind (f : α → Checked β) : Checked α → Checked β
  | .good a => f a
  | .bad issues => .bad issues
  | .fault e => .fault e

def both : Checked α → Checked β → Checked (α × β)
  | .fault e, _ => .fault e
  | _, .fault e => .fault e
  | .good a, .good b => .good (a, b)
  | .bad is, .bad js => .bad (is ++ js)
  | .bad is, .good _ => .bad is
  | .good _, .bad js => .bad js

def within (step : Step) : Checked α → Checked α
  | .bad issues => .bad (issues.map fun i => { i with place := step :: i.place })
  | c => c

end Checked

/-- The blanks that are trimmed around a number in a text. The field separators are not among
them. -/
def isNumberBlank (c : Char) : Bool :=
  Text.isBlank c && !(decide (0x1C ≤ c.toNat) && decide (c.toNat ≤ 0x1F))

def isLeadDigit (c : Char) : Bool := '1' ≤ c && c ≤ '9'

/-- What follows zeros and underscores at the start of a number, the last of which was `last`. It
may be a minus sign. -/
def afterZeros (last : Char) : List Char → Option (List Char)
  | [] => some [last]
  | c :: cs =>
    if c == '0' || c == '_' then afterZeros c cs
    else if isLeadDigit c || c == '-' then some (c :: cs)
    else if c == '.' then some (last :: c :: cs)
    else none

/-- A number without its leading zeros. It has to start with a digit or a minus sign. -/
def dropLeadingZeros : List Char → Option (List Char)
  | [] => none
  | c :: cs =>
    if c == '0' then afterZeros c cs
    else if isLeadDigit c || c == '-' then some (c :: cs)
    else none

def dropPlus : List Char → Option (List Char)
  | '+' :: '-' :: _ => none
  | '+' :: cs => some cs
  | cs => some cs

def dropZeroFraction (cs : List Char) : List Char :=
  let whole := cs.takeWhile (· != '.')
  let fraction := cs.drop (whole.length + 1)
  if !fraction.isEmpty && fraction.all (· == '0') then whole else cs

def dropUnderscores (cs : List Char) : Option (List Char) :=
  if cs.head? == some '_' || cs.getLast? == some '_' || Text.occursIn ['_', '_'] cs then none
  else some (cs.filter (· != '_'))

def plainNumber? (cs : List Char) : Option (List Char) := do
  dropUnderscores (dropZeroFraction (← dropLeadingZeros (← dropPlus cs)))

def checkEncodable (s : String) (input : Value) (check : String → Checked α) : Checked α :=
  if Text.isEncodable s then check s else .issue .notUnicode input

def checkIntText (s : String) (input : Value) : Checked Int :=
  match plainNumber? (Text.trimBy isNumberBlank s.toList) with
  | none => .issue .notIntText input
  | some cs =>
    if Text.maxDigits < (cs.dropWhile (· == '-')).length then .issue .tooLong input
    else match Text.signed? (Text.natural? Text.asciiDigit?) cs with
      | some n => .good n
      | none => .issue .notIntText input

def checkIntReal (x : Binary64) (input : Value) : Checked Int :=
  match x with
  | .finite _ _ _ =>
    match x.toInt? with
    | some n => if n.natAbs < Nat.pow 2 63 then .good n else .issue .tooLong input
    | none => .issue .fractional input
  | _ => .issue .notFinite input

def checkScalar (problem : Problem) (check : Scalar → Checked α) : Value → Checked α
  | .scalar s => check s
  | v => .issue problem v

def checkInt : Value → Checked Int := checkScalar .notInt fun s =>
  match s with
  | .int n => .good n
  | .bool b => .good (if b then 1 else 0)
  | .real x => checkIntReal x (.scalar s)
  | .text t => checkEncodable t (.scalar s) fun t => checkIntText t (.scalar s)
  | .bytes bs =>
    if Text.Utf8.isWellFormed bs then checkIntText (Text.Utf8.decode bs) (.scalar s)
    else .issue .notIntText (.scalar s)
  | _ => .issue .notInt (.scalar s)

def checkIntBy (good : Int → Bool) (reason : Int → String) (v : Value) : Checked Int :=
  (checkInt v).bind fun n => if good n then .good n else .issue (.refused (reason n)) v

def checkText : Value → Checked String := checkScalar .notText fun s =>
  match s with
  | .text t => checkEncodable t (.scalar s) .good
  | .bytes bs =>
    if Text.Utf8.isWellFormed bs then .good (Text.Utf8.decode bs)
    else .issue .notUnicode (.scalar s)
  | _ => .issue .notText (.scalar s)

def checkName (named? : String → Option α) (problem : Problem) : Value → Checked α :=
  checkScalar problem fun s =>
    match s with
    | .text t => checkEncodable t (.scalar s) fun t =>
      ((named? t).map Checked.good).getD (.issue problem (.scalar s))
    | _ => .issue problem (.scalar s)

def checkLevel : Value → Checked Level := checkName Level.named? .notLevel

def checkOptionalLevel (v : Value) : Checked (Option Level) :=
  match v with
  | .scalar .null => .good none
  | _ => (checkLevel v).map some

def checkFormat : Value → Checked LogFormat := checkName LogFormat.named? .notFormat

/-- Home directories: one's own and those of named accounts. -/
structure Homes where
  own : String
  accounts : List (String × String)
deriving DecidableEq, Repr

def noHome : Fault := ⟨"RuntimeError", "Could not determine home directory."⟩

def Homes.expand (h : Homes) (p : Path) : Except Fault Path :=
  match p.root, p.parts with
  | .relative, first :: rest =>
    match first.toList with
    | '~' :: account =>
      let home := if account.isEmpty then some h.own else h.accounts.lookup (String.ofList account)
      match home with
      | some dir => .ok ((Path.ofString dir).under ⟨.relative, rest⟩)
      | none => .error noHome
    | _ => .ok p
  | _, _ => .ok p

def standardStreams : List String := ["stderr", "stdout"]

def checkDestination (h : Homes) (v : Value) : Checked String :=
  (checkText v).bind fun s =>
    if standardStreams.contains s then .good s
    else match h.expand (Path.ofString s) with
      | .error f => .fault f
      | .ok p =>
        if p.isAbsolute then .good p.toString
        else .issue (.refused s!"File destination must be absolute path: {s}") v

def checkField (es : Entries) (name : String) (standard : α) (check : Value → Checked α) :
    Checked α :=
  match es.get? name with
  | some v => (check v).within (.field name)
  | none => .good standard

def checkModel (name : String) (check : Entries → Checked α) (v : Value) : Checked α :=
  match v.entries? with
  | some es => check es
  | none => .issue (.notModel name) v

def checkItems (check : Value → Checked α) : Nat → List Value → Checked (List α)
  | _, [] => .good []
  | i, v :: vs =>
    (((check v).within (.item i)).both (checkItems check (i + 1) vs)).map fun (a, as) => a :: as

def checkList (check : Value → Checked α) (v : Value) : Checked (List α) :=
  match v.items? with
  | some vs => checkItems check 0 vs
  | none => .issue .notList v

def LogOutput.check (h : Homes) : Value → Checked LogOutput :=
  checkModel "LogOutputConfig" fun es =>
    ((checkField es "format" LogOutput.standard.format checkFormat).both
      ((checkField es "destination" LogOutput.standard.destination (checkDestination h)).both
        (checkField es "level" none checkOptionalLevel))).map fun (f, d, l) => ⟨f, d, l⟩

def LoggingSettings.check (h : Homes) : Value → Checked LoggingSettings :=
  checkModel "LoggingConfig" fun es =>
    ((checkField es "level" LoggingSettings.standard.level checkLevel).both
      (checkField es "outputs" LoggingSettings.standard.outputs
        (checkList (LogOutput.check h)))).map
        fun (l, os) => ⟨l, os⟩

def checkMinLines : Value → Checked Int := checkIntBy (fun n => decide (1 ≤ n)) minLinesMessage

def checkMaxWorkers : Value → Checked Int :=
  checkIntBy (fun n => decide (1 ≤ n) && decide (n ≤ maxWorkersLimit))
    fun n => s!"max_workers must be 1-{maxWorkersLimit}, got {n}"

def checkMaxFiles : Value → Checked Int :=
  checkIntBy (fun n => decide (1 ≤ n) && decide (n ≤ maxFilesLimit))
    fun n => s!"max_files must be 1-{maxFilesLimit}, got {n}"

def ExtractionSettings.check : Value → Checked ExtractionSettings :=
  checkModel "ExtractionConfig" fun es =>
    ((checkField es "min_lines" ExtractionSettings.standard.minLines checkMinLines).both
      (checkField es "max_workers" ExtractionSettings.standard.maxWorkers checkMaxWorkers)).map
        fun (m, w) => ⟨m, w⟩

def LimitSettings.check : Value → Checked LimitSettings :=
  checkModel "LimitsConfig" fun es =>
    (checkField es "max_files" LimitSettings.standard.maxFiles checkMaxFiles).map fun n => ⟨n⟩

def Settings.checkSections (h : Homes) (es : Entries) : Checked Settings :=
  ((checkField es "logging" LoggingSettings.standard (LoggingSettings.check h)).both
    ((checkField es "extraction" ExtractionSettings.standard ExtractionSettings.check).both
      (checkField es "limits" LimitSettings.standard LimitSettings.check))).map
        fun (l, e, m) => ⟨l, e, m⟩

def Settings.check (h : Homes) : Value → Checked Settings :=
  checkModel "CodeOutlineConfig" (Settings.checkSections h)

def Settings.sections : List String := ["logging", "extraction", "limits"]

def checkNoExtras : Entries → Checked Unit
  | [] => .good ()
  | (k, v) :: rest =>
    let here : Checked Unit := match k with
      | .text s =>
        if Settings.sections.contains s then .good ()
          else (Checked.issue .extra v).within (.field s)
      | _ => .good ()
    (here.both (checkNoExtras rest)).map fun _ => ()

def Settings.checkStrictly (h : Homes) (es : Entries) : Checked Settings :=
  ((Settings.checkSections h es).both (checkNoExtras es)).map (·.1)

end SourceOutline
