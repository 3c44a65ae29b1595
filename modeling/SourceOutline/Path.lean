import SourceOutline.Text.Lines

/-! File paths. A path is kept in parts; empty parts and single points are dropped when it is read,
but two points are not resolved, because what stands before them may be a link. -/
namespace SourceOutline

/-- Where a path starts. Exactly two slashes at the start are a root of their own. -/
inductive PathRoot where
  | relative
  | slash
  | doubleSlash
deriving DecidableEq, Repr

def PathRoot.text : PathRoot → String
  | .relative => ""
  | .slash => "/"
  | .doubleSlash => "//"

structure Path where
  root : PathRoot
  parts : List String
deriving DecidableEq, Repr

namespace Path

def rootOf (cs : List Char) : PathRoot :=
  match (cs.takeWhile (· == '/')).length with
  | 0 => .relative
  | 2 => .doubleSlash
  | _ => .slash

def isPart (cs : List Char) : Bool := !cs.isEmpty && cs != ['.']

def ofString (s : String) : Path :=
  ⟨rootOf s.toList, ((Text.cutAt '/' s.toList).filter isPart).map String.ofList⟩

def toString (p : Path) : String :=
  let s := p.root.text ++ String.intercalate "/" p.parts
  if s.isEmpty then "." else s

instance : ToString Path := ⟨toString⟩

def name (p : Path) : String := p.parts.getLast?.getD ""

def child (p : Path) (name : String) : Path := ⟨p.root, p.parts ++ [name]⟩

/-- The path inside a directory; a path with a root of its own replaces the directory. -/
def under (dir p : Path) : Path :=
  match p.root with
  | .relative => ⟨dir.root, dir.parts ++ p.parts⟩
  | _ => p

/-- The directory that a path is in. A root is in itself. -/
def parent (p : Path) : Path := ⟨p.root, p.parts.dropLast⟩

def withoutSteps (parts : List String) : List String :=
  parts.foldl (fun done part => if part == ".." then done.dropLast else done ++ [part]) []

/-- An absolute path with each step up taken, without a look at what stands before it. -/
def normal (p : Path) : Path := ⟨p.root, withoutSteps p.parts⟩

def isAbsolute (p : Path) : Bool := p.root != .relative

/-- What follows the last point of a name. A point at the very start or the very end opens no
extension. -/
def extensionOf (name : List Char) : List Char :=
  let tail := (name.reverse.takeWhile (· != '.')).reverse
  if tail.length + 1 < name.length then tail else []

def extension (p : Path) : String := String.ofList (extensionOf p.name.toList)

end Path

end SourceOutline
