import SourceOutline.Disk
import SourceOutline.Settings.Check
import SourceOutline.Text.Lines
import SourceOutline.Value.Display

/-! Where log lines go. Settings name the outputs; each has a format and a level. An event must pass
the level of all before the level of each output, and is then written to the output's sink. -/
namespace SourceOutline

inductive LogLine where
  | object (fields : Entries)
  | text (s : String)

def LogLine.plain : LogLine → String
  | .object fields => (Value.map fields).show
  | .text s => s

structure Handler where
  sink : String
  format : LogFormat
  level : Level
deriving DecidableEq, Repr

def Handler.isStream (h : Handler) : Bool := standardStreams.contains h.sink

/-- The log as it is set up, with everything written so far. -/
structure LogState where
  level : Level
  handlers : List Handler
  sinks : List (String × List LogLine)
  batch : BatchState
  disk : Disk

namespace LogState

def start (disk : Disk) : LogState := ⟨.warning, [], [("stderr", []), ("stdout", [])], .start, disk⟩

def addSink (name : String) (s : LogState) : LogState :=
  if (s.sinks.lookup name).isSome then s else { s with sinks := s.sinks ++ [(name, [])] }

/-- The name of the sink for a destination. A file is named by its path with steps up taken. -/
def sinkName (destination : String) : String :=
  if standardStreams.contains destination then destination
    else (Path.ofString destination).normal.toString

def openDestination (destination : String) (d : Disk) : Except Fault Disk :=
  let p := Path.ofString destination
  if standardStreams.contains destination then .ok d
    else (d.makeAll p.parent).bind (·.openFile p.normal)

def handlerOf (settings : LoggingSettings) (o : LogOutput) : Handler :=
  ⟨sinkName o.destination, o.format, o.level.getD settings.level⟩

def openOutputs (settings : LoggingSettings) : List LogOutput → LogState → Except Fault LogState
  | [], s => .ok s
  | o :: os, s => (openDestination o.destination s.disk).bind fun d =>
    let h := handlerOf settings o
    openOutputs settings os (({ s with disk := d, handlers := s.handlers ++ [h] }).addSink h.sink)

/-- Replaces all outputs. What was written stays. -/
def configure (settings : LoggingSettings) (s : LogState) : Except Fault LogState :=
  openOutputs settings settings.outputs { s with level := settings.level, handlers := [] }

def needsQuotes (s : String) : Bool := s.toList.any fun c => " \t=\r\n\x22'".toList.contains c

def fieldText : Value → String
  | .scalar (.text s) => if needsQuotes s then Text.quoted s else s
  | v => v.show

def keyName : Scalar → String
  | .text s => s
  | k => k.show

def bracketed : List String := ["logger", "logger_name"]

def appended : List String := ["stack", "exception", "exc_info"]

/-- The first line of an event: level, name and fields in the order of their keys, without empty
parts. -/
def headLine (level : Level) (fields : Entries) : String :=
  let name := ((fields.get? "event").map Value.plain).getD ""
  let places := (bracketed.filterMap fields.get?).map fun v => "[" ++ v.plain ++ "]"
  let others :=
    List.filter (fun e => !("event" :: "level" :: (bracketed ++ appended)).contains (keyName e.1))
      fields
  let sorted := others.mergeSort fun a b => !decide (keyName b.1 < keyName a.1)
  let parts :=
    s!"[{level.word}]" :: name ::
      (places ++ sorted.map fun e => keyName e.1 ++ "=" ++ fieldText e.2)
  String.ofList (Text.dropRight (· == ' ') (" ".intercalate (parts.filter (!·.isEmpty))).toList)

def divider : String := "\n\n" ++ String.ofList (List.replicate 79 '=') ++ "\n"

/-- The lines that follow the first one: a stack and an exception. Other values than texts have no
lines. -/
def tailLines (fields : Entries) : String :=
  let failed :=
    (fields.get? "exception").any (!·.isNull) || (fields.get? "exc_info").any (!·.isEmpty)
  let stack := match fields.get? "stack" with
    | some (.scalar (.text s)) => "\n" ++ s ++ (if failed then divider else "")
    | _ => ""
  let exception := match fields.get? "exception" with
    | some (.scalar (.text s)) => "\n" ++ s
    | _ => ""
  stack ++ exception

/-- The characters that the time of an event takes before its text. Lines are cut there, whether
they start with the time or not. -/
def timeWidth : Nat := 20

def consoleLines (level : Level) (fields : Entries) : List String :=
  match (Text.splitLines (headLine level fields ++ tailLines fields).toList).map String.ofList with
  | [] => []
  | first :: rest => first :: rest.map fun s => (s.drop timeWidth).toString

def lineOf (format : LogFormat) (level : Level) (fields : Entries) : List LogLine :=
  match format with
  | .json => [.object fields]
  | .console => (consoleLines level fields).map .text

def write (sink : String) (lines : List LogLine) (s : LogState) : LogState :=
  { s with sinks := s.sinks.map fun t => if t.1 == sink then (t.1, t.2 ++ lines) else t }

/-- Fields that no line shows: the time of the event takes the place of the first, the others are
the log's own. -/
def unshown : List String := ["timestamp", "_record", "_from_structlog"]

/-- The fields of an event as they are written. Level and batch overwrite fields of their name. -/
def shownFields (s : LogState) (level : Level) (name : String) (fields : Entries) : Entries :=
  let fields :=
    (.text "event", .text name) :: List.filter (fun e => !unshown.contains (keyName e.1)) fields
  s.batch.stamp (Entries.put (.text "level") (.text level.word) fields)

def emit (level : Level) (name : String) (fields : Entries) (s : LogState) : LogState :=
  if level.passes s.level then
    let shown := s.shownFields level name fields
    (s.handlers.filter fun h => level.passes h.level).foldl
      (fun s h => s.write h.sink (lineOf h.format level shown)) s
  else s

def receive (s : LogState) (e : Event) : LogState :=
  ({ s with batch := { s.batch with current := e.batch } }).emit e.level e.name (.ofNames e.fields)

def receiveAll (s : LogState) (events : List Event) : LogState := events.foldl receive s

def linesOf (s : LogState) (sink : String) : List LogLine := (s.sinks.lookup sink).getD []

end LogState

/-- The settings of a log with one output, the standard error stream, from a level that is still to
be checked. -/
def LoggingSettings.checkSimple (h : Homes) (level : Value) (json : Bool) :
    Checked LoggingSettings :=
  let format : LogFormat := if json then .json else .console
  LoggingSettings.check h
    (.record [("level", level), ("outputs", .list [.record [("format", .text format.word)]])])

end SourceOutline
