import SourceOutline.Extraction.Pool

/-! Outlines of many files. All grammars are loaded before the first file; one that fails is not
tried again in the same batch. -/
namespace SourceOutline

namespace Extractor

def allowedOf (x : Extractor) : List Path → Session → List Path × Session
  | [], s => ([], s)
  | p :: ps, s =>
    let (allowed, s) := x.allows p s
    let (rest, s) := x.allowedOf ps s
    (if allowed then p :: rest else rest, s)

def neededIds (paths : List Path) : List String :=
  (paths.filterMap fun p => (Language.forPath? p).filter (!·.byHeadings)).map (·.name)

/-- The outcomes of files that may be read. A single worker does one file after another; several go
by the schedule as far as it reaches. -/
def outlineFiles (x : Extractor) (d : Disk) (report : Registry.LoadReport) (workers : Int)
    (schedule : List Nat) (paths : List Path) (s : Session) : List (Path × Outcome) × Session :=
  let pool := Pool.start paths s
  let pool := if workers ≤ 1 then pool else pool.run x d report workers schedule
  Pool.outcomes x d report pool.jobs pool.session

def isFailure : Outcome → Bool
  | .error _ => true
  | .ok _ => false

def outlineAll (x : Extractor) (d : Disk) (requested : Option Int) (schedule : List Nat)
    (paths : List Path) (s : Session) : List (Path × Outcome) × Session :=
  let unique := paths.eraseDups
  let (allowed, s) := x.allowedOf unique s
  let (report, s) := x.registry.loadAll (neededIds allowed) s
  let (outcomes, s) :=
    x.outlineFiles d report (x.workerCount requested allowed.length) schedule allowed s
  (outcomes, s.emit "batch_extracted" .info
    [("files", .int outcomes.length), ("failed", .int (outcomes.countP (isFailure ·.2))),
     ("skipped", .int (unique.length - allowed.length : Nat)),
     ("languages", .list (report.loaded.map (.text ·.1)))])

/-- The outcomes of all paths that are not vetoed, each path once, in order, with the requested
number of workers. The batch has an id of its own; afterwards the previous one is back. -/
def outlineTogether (x : Extractor) (d : Disk) (requested : Option Int) (schedule : List Nat)
    (paths : List Path) (s : Session) : List (Path × Outcome) × Session :=
  let previous := s.batch.current
  let (outcomes, s) := x.outlineAll d requested schedule paths { s with batch := s.batch.set none }
  (outcomes, { s with batch := { s.batch with current := previous } })

end Extractor

end SourceOutline
