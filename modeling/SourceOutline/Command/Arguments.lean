import SourceOutline.Text.Digits
import SourceOutline.Text.Quoted
import SourceOutline.Text.Similarity

/-! The arguments of the command. Options may stand before, between and after paths; two hyphens end
them. First the arguments are split, then the values of the options are read in the order in which
the options came. -/
namespace SourceOutline

inductive CommandOption where
  | version
  | help
  | minLines
  | workers
  | json
  | verbose
deriving DecidableEq, Repr

namespace CommandOption

def long : List (String × CommandOption) :=
  [("--version", .version), ("--help", .help), ("--min-lines", .minLines), ("--workers", .workers),
    ("--json", .json),
   ("--verbose", .verbose)]

def short : List (Char × CommandOption) := [('v', .verbose)]

def isEager (o : CommandOption) : Bool := o == .version || o == .help

def takesValue : CommandOption → Bool
  | .minLines => true
  | .workers => true
  | _ => false

end CommandOption

structure ValueRange where
  max : Option Int
deriving DecidableEq, Repr

namespace ValueRange

def contains (r : ValueRange) (n : Int) : Bool :=
  decide (1 ≤ n) && match r.max with
    | some m => decide (n ≤ m)
    | none => true

def text (r : ValueRange) : String :=
  match r.max with
  | some m => s!"1<=x<={m}"
  | none => "x>=1"

end ValueRange

inductive UsageError where
  /-- An unknown option, with the names that it may have been meant for. -/
  | noSuchOption (name : String) (similar : List String)
  | needsValue (option : String)
  | takesNoValue (option : String)
  | notInteger (option value : String)
  | outOfRange (option : String) (value : Int) (range : ValueRange)
  | missingPaths
deriving DecidableEq, Repr

namespace UsageError

def comma : String := ", "

def suggestion : List String → String
  | [] => ""
  | [name] => s!" Did you mean {Text.quoted name}?"
  | names => s!" (Did you mean one of: {String.intercalate comma (names.map Text.quoted)}?)"

def message : UsageError → String
  | .noSuchOption name similar => s!"No such option {Text.quoted name}." ++ suggestion similar
  | .needsValue option => s!"Option {Text.quoted option} requires an argument."
  | .takesNoValue option => s!"Option {Text.quoted option} does not take a value."
  | .notInteger option value =>
    s!"Invalid value for {Text.quoted option}: {Text.quoted value} is not a valid integer range."
  | .outOfRange option value range =>
    s!"Invalid value for {Text.quoted option}: {value} is not in the range {range.text}."
  | .missingPaths => "Missing argument 'PATHS...'."

def showsUsage : UsageError → Bool
  | .needsValue _ => false
  | .takesNoValue _ => false
  | _ => true

def usage : String := "Usage: cli [OPTIONS] PATHS...\nTry 'cli --help' for help.\n\n"

def report (e : UsageError) : String :=
  (if e.showsUsage then usage else "") ++ "Error: " ++ e.message ++ "\n"

end UsageError

structure SplitArguments where
  options : List (CommandOption × String)
  paths : List String
deriving DecidableEq, Repr

def letterOptions : List Char → Except UsageError (List (CommandOption × String))
  | [] => .ok []
  | c :: cs =>
    match CommandOption.short.lookup c with
    | some o => (letterOptions cs).map ((o, "") :: ·)
    | none => .error (.noSuchOption (String.ofList ['-', c]) [])

inductive OptionWord where
  | flags (options : List (CommandOption × String))
  /-- An option with a value, and the value if it is attached. -/
  | valued (option : CommandOption) (name : String) (value : Option String)

/-- Reads an option: a whole name first, with its value after an equals sign; failing that, single
letters. -/
def optionWord (arg : String) : Except UsageError OptionWord :=
  let cs := arg.toList
  let name := String.ofList (cs.takeWhile (· != '='))
  let value :=
    if cs.contains '=' then some (String.ofList ((cs.dropWhile (· != '=')).drop 1)) else none
  match CommandOption.long.lookup name with
  | some o =>
    if o.takesValue then .ok (.valued o name value)
    else if value.isSome then .error (.takesNoValue name)
    else .ok (.flags [(o, "")])
  | none =>
    match cs with
    | '-' :: '-' :: _ =>
      .error (.noSuchOption name (Text.closest name (CommandOption.long.map (·.1))))
    | _ => (letterOptions (cs.drop 1)).map .flags

def isOptionWord (arg : String) : Bool := arg.toList.head? == some '-' && decide (1 < arg.length)

def SplitArguments.add (options : List (CommandOption × String)) (a : SplitArguments) :
    SplitArguments :=
  { a with options := options ++ a.options }

def splitArguments : List String → Except UsageError SplitArguments
  | [] => .ok ⟨[], []⟩
  | arg :: rest =>
    if arg == "--" then .ok ⟨[], rest⟩
    else if isOptionWord arg then
      match optionWord arg with
      | .error e => .error e
      | .ok (.flags os) => (splitArguments rest).map (·.add os)
      | .ok (.valued o _ (some v)) => (splitArguments rest).map (·.add [(o, v)])
      | .ok (.valued o name none) =>
        match rest with
        | [] => .error (.needsValue name)
        | v :: rest => (splitArguments rest).map (·.add [(o, v)])
    else (splitArguments rest).map fun a => { a with paths := arg :: a.paths }

structure Arguments where
  paths : List String
  minLines : Option Int
  workers : Option Int
  json : Bool
  verbose : Bool
deriving DecidableEq, Repr

inductive Request where
  | version
  | help
  | listing (a : Arguments)
deriving DecidableEq, Repr

def valueRange? : CommandOption → Option (String × ValueRange)
  | .minLines => some ("--min-lines", ⟨none⟩)
  | .workers => some ("--workers", ⟨some 64⟩)
  | _ => none

namespace SplitArguments

def has (a : SplitArguments) (o : CommandOption) : Bool := a.options.any (·.1 == o)

def value? (a : SplitArguments) (o : CommandOption) : Option String :=
  (a.options.filter (·.1 == o)).getLast?.map (·.2)

def checkValue (a : SplitArguments) (o : CommandOption) : Except UsageError (Option Int) :=
  match valueRange? o, a.value? o with
  | some (name, range), some v =>
    match Text.integer? v with
    | none => .error (.notInteger name v)
    | some n => if range.contains n then .ok (some n) else .error (.outOfRange name n range)
  | _, _ => .ok none

def checkEach (a : SplitArguments) : List CommandOption → Except UsageError Unit
  | [] => .ok ()
  | o :: os => (a.checkValue o).bind fun _ => a.checkEach os

/-- Version and help come before everything else; paths are asked for last. -/
def request (a : SplitArguments) : Except UsageError Request :=
  let order : List CommandOption := (a.options.map (·.1)).eraseDups
  match order.find? CommandOption.isEager with
  | some o => .ok (if o == CommandOption.version then .version else .help)
  | none => do
    a.checkEach order
    let minLines ← a.checkValue .minLines
    let workers ← a.checkValue .workers
    if a.paths.isEmpty then .error .missingPaths
    else return .listing ⟨a.paths, minLines, workers, a.has .json, a.has .verbose⟩

end SplitArguments

def Request.ofArguments (args : List String) : Except UsageError Request :=
  (splitArguments args).bind SplitArguments.request

end SourceOutline
