import SourceOutline.Disk
import SourceOutline.Error
import SourceOutline.Settings.Override
import SourceOutline.Text.IllFormed
import SourceOutline.Yaml.Document

/-! Loading settings. There are five sources: overrides, the environment, the file of the
repository, the file of the user, and what holds without any setting. A higher source wins, key by
key within the sections. -/
namespace SourceOutline

inductive FileState where
  | absent
  | text (s : String)
  /-- A text of which only a first part can be read, and the fault of going on. -/
  | cutShort (s : String) (f : Fault)
  | unreadable (f : Fault)
deriving DecidableEq, Repr

namespace FileState

/-- Text is handed on in portions of so many characters, of which the first two are read at once. -/
def portion : Nat := 4096

def ofBroken (b : Text.Utf8.Broken) : FileState :=
  let fault : Fault := ⟨"UnicodeDecodeError", b.flaw.message⟩
  let cs := Yaml.unifyBreaks (Text.Utf8.decodeChars b.before)
  let ready := (if b.before.getLast? == some 0x0D then cs.length - 1 else cs.length) / portion
  if ready < 2 then .unreadable fault
    else .cutShort (String.ofList (cs.take (ready * portion))) fault

def ofBytes (bs : Text.Utf8.Bytes) : FileState :=
  match Text.Utf8.broken? bs with
  | some b => .ofBroken b
  | none => .text (Text.Utf8.decode bs)

/-- What a disk has at a path; a fault speaks of the path as `shown`. -/
def onDisk (d : Disk) (p : Path) (shown : String) : FileState :=
  match d.find p with
  | .error e => if e.isAbsence then .absent else .unreadable (e.faultOn shown)
  | .ok _ =>
    match d.read p with
    | .ok bs => .ofBytes bs
    | .error e => .unreadable (e.faultOn shown)

end FileState

structure SettingsFile where
  path : String
  state : FileState
deriving DecidableEq, Repr

inductive LoadError where
  /-- A file that is not well-formed; how the reader words it is left open. -/
  | malformed (path : String)
  | refused (e : SettingsError)
  | environment (name : String)
  | keyNotText
  | fault (f : Fault)

namespace LoadError

def message : LoadError → String
  | .malformed path => s!"Failed to parse config at {path}:"
  | .refused e => e.report.message
  | .environment sec =>
    s!"error parsing value for field \"{sec}\" from source \"EnvSettingsSource\""
  | .keyNotText => "keywords must be strings"
  | .fault f => f.text

def fault? : LoadError → Option Fault
  | .malformed _ => none
  | .refused _ => none
  | .environment sec => some ⟨"SettingsError", (LoadError.environment sec).message⟩
  | .keyNotText => some ⟨"TypeError", LoadError.keyNotText.message⟩
  | .fault f => some f

end LoadError

def LoadError.ofEnvironment : EnvironmentError → LoadError
  | .unreadable sec => .environment sec
  | .fault f => .fault f

namespace SettingsFile

def entriesOf (f : SettingsFile) (document : Except Yaml.YamlError Value) :
    Except LoadError Entries :=
  match document with
  | .error .malformed => .error (.malformed f.path)
  | .error (.fault e) => .error (.fault e)
  | .ok v =>
    match v.entries? with
    | some es => .ok es
    | none =>
      if v.isEmpty then .ok []
        else .error (.refused (.unreadable f.path "top level must be a mapping"))

def read (f : SettingsFile) : Except LoadError Entries :=
  match f.state with
  | .absent => .ok []
  | .unreadable e => .error (.fault e)
  | .text s => f.entriesOf (Yaml.read s none)
  | .cutShort s e => f.entriesOf (Yaml.read s (some e))

end SettingsFile

def isTextKey : Scalar → Bool
  | .text _ => true
  | _ => false

/-- Settings from merged sources. Of several issues the first is reported. -/
def settingsOf (h : Homes) (es : Entries) : Except LoadError Settings :=
  if !es.names.all isTextKey then .error .keyNotText
  else match Settings.checkStrictly h es with
    | .good s => .ok s
    | .fault f => .error (.fault f)
    | .bad [] => .error (.fault (.badValue ""))
    | .bad (i :: _) =>
      match i.input.printFault? maxNesting with
      | none => .error (.refused (.invalid i.path i.input i.problem.message))
      | some f => .error (.fault f)

/-- The settings from all sources. The repository's file is read before the user's. -/
def loadSettings (h : Homes) (repo user : SettingsFile) (env : Environment)
    (overrides : Overrides) : Except LoadError Settings := do
  overrides.checkRoot.mapError .fault
  let repoEntries ← repo.read
  let userEntries ← user.read
  let files ← (Entries.merge maxNesting userEntries repoEntries).mapError .fault
  let envEntries ← (env.settings overrides.rules).mapError LoadError.ofEnvironment
  let above ← (Entries.merge maxNesting envEntries overrides.settings).mapError .fault
  settingsOf h (← (Entries.merge maxNesting files above).mapError .fault)

end SourceOutline
