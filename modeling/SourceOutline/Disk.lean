import SourceOutline.Fault
import SourceOutline.Path
import SourceOutline.Text.Quoted
import SourceOutline.Text.Utf8

/-! A disk: files and directories, and the working directory from which relative paths start. Paths
are walked part by part as an operating system walks them, so a path through a file fails in another
way than a path through nothing. Whatever else the operating system may answer is left open. -/
namespace SourceOutline

inductive DiskError where
  | absent
  | notDirectory
  | isDirectory
  | nameTooLong
  | present
deriving DecidableEq, Repr

namespace DiskError

def number : DiskError → Nat
  | .absent => 2
  | .notDirectory => 20
  | .isDirectory => 21
  | .nameTooLong => 36
  | .present => 17

def reason : DiskError → String
  | .absent => "No such file or directory"
  | .notDirectory => "Not a directory"
  | .isDirectory => "Is a directory"
  | .nameTooLong => "File name too long"
  | .present => "File exists"

def kind : DiskError → String
  | .absent => "FileNotFoundError"
  | .notDirectory => "NotADirectoryError"
  | .isDirectory => "IsADirectoryError"
  | .nameTooLong => "OSError"
  | .present => "FileExistsError"

def fault (e : DiskError) (path : String) : Fault :=
  ⟨e.kind, s!"[Errno {e.number}] {e.reason}: {Text.quoted path}"⟩

end DiskError

/-- Any error of the operating system: its number and reason, if it has them, and the fault that it
is to those who do not expect it. -/
structure SystemError where
  number : Option Nat
  reason : Option String
  fault : Fault
deriving DecidableEq, Repr

def SystemError.shown (e : SystemError) : String :=
  match e.reason with
  | some reason => if reason.isEmpty then e.fault.text else reason
  | none => e.fault.text

/-- Why a path is of no use: an error that follows from what is on the disk, any other error of the
operating system, or a fault before the system is even asked. -/
inductive ReadError where
  | disk (e : DiskError)
  | system (e : SystemError)
  | fault (f : Fault)
deriving DecidableEq, Repr

namespace ReadError

def faultOn (path : String) : ReadError → Fault
  | .disk e => e.fault path
  | .system e => e.fault
  | .fault f => f

/-- The numbers of the errors that say that nothing is there: absent, no directory on the way, no
such file any more, a circle of links. -/
def absenceNumbers : List Nat := [2, 20, 9, 40]

def isAbsence : ReadError → Bool
  | .disk e => absenceNumbers.contains e.number
  | .system e => e.number.any absenceNumbers.contains
  | .fault f => Fault.valueKinds.contains f.kind

def isMissing : ReadError → Bool
  | .disk e => e == .absent
  | .system e => e.number == some 2
  | .fault _ => false

end ReadError

inductive DiskCall where
  | list
  | read
  | make
  | append
deriving DecidableEq, Repr

/-- Files and directories by their parts from the root on. Beyond that the system may lead a path
elsewhere or nowhere, as a link does or a directory that must not be passed, and it may refuse what
is to be done at a place. -/
structure Disk where
  files : List (List String × Text.Utf8.Bytes)
  dirs : List (List String)
  workingDir : List String
  /-- Paths that do not lead where their parts do. -/
  routes : Path → Option (Except ReadError (List String))
  refusals : DiskCall → List String → Option ReadError

namespace Disk

def empty (workingDir : List String) : Disk :=
  ⟨[], [], workingDir, fun _ => none, fun _ _ => none⟩

def contentAt? (d : Disk) (place : List String) : Option Text.Utf8.Bytes := d.files.lookup place

def hasDir (d : Disk) (place : List String) : Bool :=
  place.isPrefixOf d.workingDir || d.dirs.any (place.isPrefixOf ·) ||
    d.files.any fun f => place.isPrefixOf f.1 && f.1 != place

def maxNameBytes : Nat := 255

def maxPathBytes : Nat := 4095

/-- One part further, from a place that exists. The root is its own parent. -/
def step (d : Disk) (place : List String) (part : String) : Except DiskError (List String) :=
  if !d.hasDir place then .error .notDirectory
  else if part == ".." then .ok place.dropLast
  else if maxNameBytes < part.utf8ByteSize then .error .nameTooLong
  else
    let next := place ++ [part]
    if d.hasDir next || (d.contentAt? next).isSome then .ok next else .error .absent

def walk (d : Disk) : List String → List String → Except DiskError (List String)
  | place, [] => .ok place
  | place, part :: rest => (d.step place part).bind fun next => d.walk next rest

def nullFault : Fault := .badValue "embedded null byte"

def hasNull (p : Path) : Bool := p.parts.any (·.toList.contains '\x00')

def origin (d : Disk) (p : Path) : List String := if p.isAbsolute then [] else d.workingDir

def walkFrom (d : Disk) (p : Path) : Except ReadError (List String) :=
  if maxPathBytes < p.toString.utf8ByteSize then .error (.disk .nameTooLong)
  else (d.walk (d.origin p) p.parts).mapError .disk

def find (d : Disk) (p : Path) : Except ReadError (List String) :=
  if hasNull p then .error (.fault nullFault)
  else (d.routes p).getD (d.walkFrom p)

def permitted (d : Disk) (call : DiskCall) (place : List String) (a : Except ReadError α) :
    Except ReadError α :=
  match d.refusals call place with
  | some e => .error e
  | none => a

def read (d : Disk) (p : Path) : Except ReadError Text.Utf8.Bytes :=
  (d.find p).bind fun place => d.permitted .read place <|
    match d.contentAt? place with
    | some content => .ok content
    | none => .error (.disk .isDirectory)

/-- Whether a path leads to a place of some sort. One that leads nowhere does not; any other error
is a fault. -/
def examine (d : Disk) (sort : List String → Bool) (p : Path) : Except Fault Bool :=
  match d.find p with
  | .ok place => .ok (sort place)
  | .error e => if e.isAbsence then .ok false else .error (e.faultOn p.toString)

def isDir (d : Disk) (p : Path) : Except Fault Bool := d.examine d.hasDir p

def isFile (d : Disk) (p : Path) : Except Fault Bool :=
  d.examine (fun place => (d.contentAt? place).isSome) p

/-- The names of what is directly at a place: the next parts of all places inside of it. -/
def namesAt (d : Disk) (place : List String) : List String :=
  ((d.files.map (·.1) ++ d.dirs ++ [d.workingDir]).filterMap fun inside =>
    if place.isPrefixOf inside then inside[place.length]? else none).eraseDups

def entryNames (d : Disk) (p : Path) : Except ReadError (List String) :=
  (d.find p).bind fun place => d.permitted .list place (.ok (d.namesAt place))

/-- Makes the directories of a path on the way, part by part, and ends where the path ends. -/
def makeDirs (d : Disk) : List String → List String → Disk × List String
  | place, [] => ({ d with dirs := place :: d.dirs }, place)
  | place, part :: rest =>
    let d := { d with dirs := place :: d.dirs }
    if part == ".." then d.makeDirs place.dropLast rest else d.makeDirs (place ++ [part]) rest

def makeDir (d : Disk) (p : Path) : Disk := (d.makeDirs (d.origin p) p.parts).1

/-- Writes a file; the directories on the way to it are made. -/
def put (d : Disk) (p : Path) (content : Text.Utf8.Bytes) : Disk :=
  let (d, dir) := d.makeDirs (d.origin p) p.parts.dropLast
  let place := dir ++ [p.name]
  { d with files := (place, content) :: d.files.filter (·.1 != place) }

def makeOne (d : Disk) (p : Path) : Except ReadError Disk :=
  if hasNull p then .error (.fault nullFault)
  else match p.parts.getLast? with
    | none => .error (.disk .present)
    | some name => (d.find p.parent).bind fun place => d.permitted .make (place ++ [name]) <|
      match d.step place name with
      | .ok _ => .error (.disk .present)
      | .error .absent => .ok { d with dirs := (place ++ [name]) :: d.dirs }
      | .error e => .error (.disk e)

def unlessDir (d : Disk) (p : Path) (e : ReadError) : Except Fault Disk :=
  (d.isDir p).bind fun there => if there then .ok d else .error (e.faultOn p.toString)

/-- A directory that could not be made: a fault that is no error of the system is not asked
about. -/
def afterMaking (d : Disk) (p : Path) : ReadError → Except Fault Disk
  | .fault f => .error f
  | e => d.unlessDir p e

def makeMissing (d : Disk) : Nat → Path → Except Fault Disk
  | 0, p => .error (DiskError.absent.fault p.toString)
  | n + 1, p =>
    match d.makeOne p with
    | .ok d => .ok d
    | .error e =>
      if !e.isMissing then d.afterMaking p e
      else if p.parent == p then .error (e.faultOn p.toString)
      else (d.makeMissing n p.parent).bind fun d =>
        match d.makeOne p with
        | .ok d => .ok d
        | .error e => if e.isMissing then .error (e.faultOn p.toString) else d.afterMaking p e

def makeAll (d : Disk) (p : Path) : Except Fault Disk := d.makeMissing (p.parts.length + 1) p

def openFile (d : Disk) (p : Path) : Except Fault Disk :=
  let answer : Except ReadError Disk := match d.find p with
    | .ok place => d.permitted .append place <|
      if (d.contentAt? place).isSome then .ok d else .error (.disk .isDirectory)
    | .error (.disk .absent) => (d.find p.parent).bind fun place =>
      d.permitted .append (place ++ [p.name])
        (.ok { d with files := (place ++ [p.name], []) :: d.files })
    | .error e => .error e
  answer.mapError (ReadError.faultOn p.toString)

def remove (d : Disk) (p : Path) : Disk :=
  match d.find p with
  | .ok place => { d with files := d.files.filter (·.1 != place), dirs := place.dropLast :: d.dirs }
  | .error _ => d

end Disk

end SourceOutline
