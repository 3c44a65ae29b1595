import SourceOutline.Command.Arguments
import SourceOutline.Command.Expand
import SourceOutline.Extraction.Batch
import SourceOutline.Json.Writer
import SourceOutline.Log.Sink
import SourceOutline.Settings.Load

/-! The command: it reads its arguments and the settings, outlines the files and writes one
listing. -/
namespace SourceOutline

/-- What the command finds around it. The extractor is made for the limits that the settings
give. -/
structure Surroundings where
  disk : Disk
  homes : Homes
  environment : Environment
  repoFile : SettingsFile
  userFile : SettingsFile
  extractor : ExtractionLimits → Extractor
  /-- How the workers of a batch get on. -/
  schedule : List Nat
  /-- A line of the log as it is written to a stream, by its number there: with a time, in
  colours. -/
  showLine : String → Nat → LogLine → String
  /-- The fault of writing a listing: not every text can be encoded, and nobody may be reading. -/
  outputFault : String → Option Fault

structure LogText where
  stdout : String
  stderr : String
deriving DecidableEq, Repr

def LogText.none : LogText := ⟨"", ""⟩

inductive CommandResult where
  | written (log : LogText) (listing : String) (note : Option String)
  | misused (e : UsageError)
  /-- Settings that are refused with a message, up to the end of the line if its wording is
  fixed. -/
  | refused (message : String)
  | crashed (log : LogText) (f : Fault)
deriving DecidableEq, Repr

namespace CommandResult

def exitCode : CommandResult → Nat
  | .written _ _ _ => 0
  | .misused _ => 2
  | .refused _ => 1
  | .crashed _ _ => 1

def stdout : CommandResult → String
  | .written log listing _ => log.stdout ++ listing
  | .crashed log _ => log.stdout
  | _ => ""

def stderr : CommandResult → String
  | .written log _ note => log.stderr ++ (note.map (· ++ "\n")).getD ""
  | .misused e => e.report
  | .refused message => message
  | .crashed log f => log.stderr ++ f.describe ++ "\n"

end CommandResult

def LoadError.result (e : LoadError) : CommandResult :=
  match e.fault?, e with
  | some f, _ => .crashed .none f
  | none, .malformed _ => .refused ("Error: " ++ e.message)
  | none, _ => .refused ("Error: " ++ e.message ++ "\n")

def versionLine : String := "codeoutline, version 0.1.0\n"

def optionHelp : List (String × String) :=
  [("--version", "Show the version and exit."),
   ("--min-lines INTEGER RANGE", "Minimum definition span in lines  [x>=1]"),
   ("--workers INTEGER RANGE", "Worker threads for batch extraction  [1<=x<=64]"),
   ("--json", "Output as JSON"),
   ("-v, --verbose", "Enable debug logging"),
   ("--help", "Show this message and exit.")]

def helpColumn : Nat := 27

def helpLine (option description : String) : String :=
  "  " ++ option ++ String.ofList (List.replicate (helpColumn - option.length) ' ') ++
    description ++ "\n"

def helpText : String :=
  "Usage: cli [OPTIONS] PATHS...\n\n  Print a definition outline for each source file.\n\n" ++
  "  PATHS are files or directories (a directory lists its direct children).\n" ++
  "  Files that cannot be outlined are reported and never stop the listing.\n\nOptions:\n" ++
  String.join (optionHelp.map fun o => helpLine o.1 o.2)

def Arguments.overrides (a : Arguments) : Overrides :=
  ⟨false, match a.minLines with
    | some n => Entries.ofNames [("extraction", .record [("min_lines", .int n)])]
    | none => []⟩

def Arguments.logging (a : Arguments) (settings : Settings) : LoggingSettings :=
  if a.verbose then { settings.logging with level := .debug } else settings.logging

def textListing (outcomes : List (Path × Outcome)) : String :=
  "\n\n".intercalate (outcomes.map fun o => o.2.section o.1) ++ "\n"

def listingLayout : Json.Layout := ⟨some 2, true⟩

def jsonListing (outcomes : List (Path × Outcome)) : String :=
  Json.render listingLayout (.record [("files", .list (outcomes.map fun o => o.2.entry o.1))]) ++
    "\n"

def fileNoun : String := "file"

/-- A note on the files that failed; a listing for programs has none. -/
def noteOn (outcomes : List (Path × Outcome)) : Option String :=
  let total := outcomes.length
  let failed := outcomes.countP (Extractor.isFailure ·.2)
  if failed == 0 then none
  else some (s!"{counted failed fileNoun} could not be outlined " ++
    s!"({total - failed} of {total} succeeded)")

def listingText (json : Bool) (outcomes : List (Path × Outcome)) : String :=
  if json then jsonListing outcomes else textListing outcomes

namespace Surroundings

variable (w : Surroundings)

def shownLines (stream : String) (lines : List LogLine) : String :=
  String.join (lines.mapIdx (w.showLine stream))

def logText (log : LogState) : LogText :=
  ⟨w.shownLines "stdout" (log.linesOf "stdout"), w.shownLines "stderr" (log.linesOf "stderr")⟩

def listingResult (json : Bool) (log : LogState) (outcomes : List (Path × Outcome)) :
    CommandResult :=
  match w.outputFault (listingText json outcomes) with
  | some f => .crashed (w.logText log) f
  | none =>
    .written (w.logText log) (listingText json outcomes) (if json then none else noteOn outcomes)

end Surroundings

/-- Outlines the files that the arguments name, under the given settings. Files are read as they
were when the log was opened, also those that the log writes to. -/
def listFiles (w : Surroundings) (a : Arguments) (settings : Settings) (log : LogState) :
    CommandResult :=
  match ExtractionLimits.make settings.extraction.minLines settings.extraction.maxWorkers with
  | .error e => .crashed .none (.badValue e.message)
  | .ok limits =>
    match expandPaths log.disk settings.limits.maxFiles (a.paths.map Path.ofString) with
    | .error f => .crashed .none f
    | .ok files =>
      let (outcomes, s) :=
        (w.extractor limits).outlineTogether log.disk a.workers w.schedule files .start
      w.listingResult a.json (log.receiveAll s.log) outcomes

def runListing (w : Surroundings) (a : Arguments) : CommandResult :=
  if a.paths.any fun p => Disk.hasNull (Path.ofString p) then .crashed .none Disk.nullFault
  else match loadSettings w.homes w.repoFile w.userFile w.environment a.overrides with
    | .error e => e.result
    | .ok settings =>
      match (LogState.start w.disk).configure (a.logging settings) with
      | .error f => .crashed .none f
      | .ok log => listFiles w a settings log

def runCommand (w : Surroundings) (args : List String) : CommandResult :=
  match Request.ofArguments args with
  | .error e => .misused e
  | .ok .version => .written .none versionLine none
  | .ok .help => .written .none helpText none
  | .ok (.listing a) => runListing w a

end SourceOutline
