import SourceOutline.Disk
import SourceOutline.Language.Table

/-! Paths to outline. A directory stands for the files directly in it whose language is known, in
the order of their names and not more than a given number; any other path stands for itself, so that
what is wrong with it is reported. -/
namespace SourceOutline

/-- The first `n` items; a negative number leaves out as many at the end. -/
def takeUpTo (n : Int) (items : List α) : List α :=
  if 0 ≤ n then items.take n.toNat else items.take (items.length - n.natAbs)

/-- Those of the names in a directory that are names of files. Each of them is examined. -/
def filesAmong (d : Disk) (dir : Path) : List String → Except Fault (List String)
  | [] => .ok []
  | name :: names => (d.isFile (dir.child name)).bind fun isFile =>
    (filesAmong d dir names).map fun rest => if isFile then name :: rest else rest

/-- The paths that names of files in a directory stand for: those with a known language, in the
order of their names. -/
def listedAmong (dir : Path) (names : List String) : List Path :=
  ((names.filter fun name => (Language.forPath? (dir.child name)).isSome).mergeSort fun a b =>
    !decide (b < a)).map dir.child

def childrenOf (d : Disk) (dir : Path) : Except Fault (List Path) :=
  ((d.entryNames dir).mapError (ReadError.faultOn dir.toString)).bind fun names =>
    (filesAmong d dir names).map (listedAmong dir)

def expandPath (d : Disk) (maxFiles : Int) (p : Path) : Except Fault (List Path) :=
  (d.isDir p).bind fun isDir => if isDir then (childrenOf d p).map (takeUpTo maxFiles) else .ok [p]

def expandPaths (d : Disk) (maxFiles : Int) : List Path → Except Fault (List Path)
  | [] => .ok []
  | p :: ps =>
    (expandPath d maxFiles p).bind fun here => (expandPaths d maxFiles ps).map (here ++ ·)

end SourceOutline
