import SourceOutline.Command.Run
import SourceOutline.Language.Library
import SourceOutline.Query.Compile

/-! The command as a program. What it may need is read first; then it runs on that. No grammar
library is linked, so only files with headings get an outline, and for the others the listing says
that their library is absent. -/
namespace SourceOutline

def noLibraries (l : Language) (_ : Nat) : Except Fault Unit :=
  .error ⟨"ModuleNotFoundError", (LibraryError.noLibrary (l.library.getD l.name)).message⟩

def headingExtractor (limits : ExtractionLimits) : Extractor :=
  { registry := ⟨Language.byName, noLibraries,
    fun l n => Query.compile (.ofLanguage l.name) l.query n⟩
    parse := fun _ _ _ => .ok none
    search := fun _ _ q t => .ok (q.search t)
    access := none
    lineTest := InlineMarkup.test
    limits := limits }

def fullPath (d : Disk) (p : Path) : Path := ⟨.slash, Path.withoutSteps (d.origin p ++ p.parts)⟩

def isRealDir (p : Path) : IO Bool := do
  try (← IO.FS.realPath p.toString).isDir
  catch _ => return false

def addFile (d : Disk) (p : Path) : IO Disk := do
  try return d.put (fullPath d p) (← IO.FS.readBinFile p.toString).toList
  catch _ => return d

def addDir (d : Disk) (p : Path) : IO Disk := do
  let mut d := d.makeDir (fullPath d p)
  for entry in ← (← IO.FS.realPath p.toString).readDir do
    let child := p.child entry.fileName
    if (Language.forPath? child).isSome then d ← addFile d child
  return d

def addPath (d : Disk) (p : Path) : IO Disk := do
  let mut d := d
  for n in List.range p.parts.length do
    let dir : Path := ⟨p.root, p.parts.take n⟩
    if ← isRealDir dir then d := d.makeDir (fullPath d dir)
  if ← isRealDir p then addDir d p else addFile d p

def settingNames : List String :=
  ["LOGGING", "LOGGING__LEVEL", "LOGGING__OUTPUTS", "EXTRACTION", "EXTRACTION__MIN_LINES",
    "EXTRACTION__MAX_WORKERS",
   "LIMITS", "LIMITS__MAX_FILES"].map ("CODEOUTLINE__" ++ ·)

def readEnvironment : IO Environment := do
  settingNames.filterMapM fun name => do return (← IO.getEnv name).map (name, ·)

def settingsFile (d : Disk) (p : Path) : SettingsFile := ⟨p.toString, .onDisk d p p.toString⟩

def readSurroundings (args : List String) : IO Surroundings := do
  let home := (← IO.getEnv "HOME").getD "/"
  let here := Path.ofString (← IO.currentDir).toString
  let repo := here.under (Path.ofString ".codeoutline/config.yaml")
  let user := (Path.ofString home).under (Path.ofString ".config/codeoutline/config.yaml")
  let paths := repo :: user :: args.map Path.ofString
  let disk ← paths.foldlM addPath (Disk.empty here.parts)
  return {
    disk
    homes := ⟨home, []⟩
    environment := ← readEnvironment
    repoFile := settingsFile disk repo
    userFile := settingsFile disk user
    extractor := headingExtractor
    schedule := []
    showLine := fun _ _ line => line.plain ++ "\n"
    outputFault := fun _ => none }

end SourceOutline

def main (args : List String) : IO UInt32 := do
  let result := SourceOutline.runCommand (← SourceOutline.readSurroundings args) args
  (← IO.getStdout).putStr result.stdout
  (← IO.getStderr).putStr result.stderr
  return result.exitCode.toUInt32
