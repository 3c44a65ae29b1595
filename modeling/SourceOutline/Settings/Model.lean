import SourceOutline.Log.Event
import SourceOutline.Value

/-! Settings: where and how much to log, and the limits of extraction and of listings. -/
namespace SourceOutline

inductive LogFormat where
  | json
  | console
deriving DecidableEq, Repr

namespace LogFormat

def word : LogFormat → String
  | .json => "json"
  | .console => "console"

def named? (name : String) : Option LogFormat :=
  ([.json, .console] : List LogFormat).find? (·.word == name)

end LogFormat

/-- One destination of log lines: `stderr`, `stdout` or an absolute path. Without a level of its own
it has that of all. -/
structure LogOutput where
  format : LogFormat
  destination : String
  level : Option Level
deriving DecidableEq, Repr

structure LoggingSettings where
  level : Level
  outputs : List LogOutput
deriving DecidableEq, Repr

structure ExtractionSettings where
  minLines : Int
  maxWorkers : Int
deriving DecidableEq, Repr

structure LimitSettings where
  maxFiles : Int
deriving DecidableEq, Repr

structure Settings where
  logging : LoggingSettings
  extraction : ExtractionSettings
  limits : LimitSettings
deriving DecidableEq, Repr

def maxWorkersLimit : Int := 64

def maxFilesLimit : Int := 1000

def LogOutput.standard : LogOutput := ⟨.console, "stderr", none⟩

def LoggingSettings.standard : LoggingSettings := ⟨.warning, [.standard]⟩

def ExtractionSettings.standard : ExtractionSettings := ⟨4, 4⟩

def LimitSettings.standard : LimitSettings := ⟨50⟩

def Settings.standard : Settings := ⟨.standard, .standard, .standard⟩

def Level.settingName (l : Level) : String := ((Level.names.find? (·.2 == l)).map (·.1)).getD ""

def LogOutput.toValue (o : LogOutput) : Value :=
  .record [("format", .text o.format.word), ("destination", .text o.destination),
    ("level", (o.level.map fun l => Value.text l.settingName).getD .null)]

def LoggingSettings.toValue (s : LoggingSettings) : Value :=
  .record [("level", .text s.level.settingName),
    ("outputs", .list (s.outputs.map LogOutput.toValue))]

def ExtractionSettings.toValue (s : ExtractionSettings) : Value :=
  .record [("min_lines", .int s.minLines), ("max_workers", .int s.maxWorkers)]

def LimitSettings.toValue (s : LimitSettings) : Value := .record [("max_files", .int s.maxFiles)]

def Settings.toValue (s : Settings) : Value :=
  .record [("logging", s.logging.toValue), ("extraction", s.extraction.toValue),
    ("limits", s.limits.toValue)]

end SourceOutline
