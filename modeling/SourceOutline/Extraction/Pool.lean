import SourceOutline.Extraction.File

/-! The files of a batch, worked on by several workers. The work on a file goes through stages, and
between two stages of one file others may go on; what they share is the session. A file is taken up
when a worker is free, in the order of the batch. -/
namespace SourceOutline

inductive Progress where
  | planned
  | reading (l : Language) (g : Option LoadedGrammar)
  | parsing (l : Language) (g : LoadedGrammar) (content : Text.Utf8.Bytes)
  | searching (l : Language) (g : LoadedGrammar) (content : Text.Utf8.Bytes) (tree : SyntaxTree)
  | listing (l : Language) (content : Text.Utf8.Bytes) (captures : List Capture)
  | ended (outcome : Outcome)

namespace Progress

def isPlanned : Progress → Bool
  | .planned => true
  | _ => false

def isActive : Progress → Bool
  | .planned => false
  | .ended _ => false
  | _ => true

def ending (result : Outcome × Session) : Progress × Session := (.ended result.1, result.2)

end Progress

namespace Extractor

/-- The language and grammar for a file of a batch, given what was loaded for the batch, or why
there is none. -/
def assignment (report : Registry.LoadReport) (p : Path) :
    Except OutlineError (Language × Option LoadedGrammar) :=
  match Language.forPath? p with
  | none => .error (.unsupportedLanguage p.toString)
  | some l =>
    if l.byHeadings then .ok (l, none)
    else match report.failures.lookup l.name, report.loaded.lookup l.name with
      | some e, _ => .error e
      | none, some g => .ok (l, some g)
      | none, none => .error (.unsupportedLanguage p.toString)

def outlineIn (x : Extractor) (d : Disk) (report : Registry.LoadReport) (p : Path) (s : Session) :
    Outcome × Session :=
  match assignment report p with
  | .error e => fail p e s
  | .ok (l, g) => x.outlineWith d p l g s

def proceed (x : Extractor) (d : Disk) (report : Registry.LoadReport) (p : Path) :
    Progress → Session → Progress × Session
  | .planned, s =>
    match assignment report p with
    | .error e => Progress.ending (fail p e s)
    | .ok (l, g) => (.reading l g, s)
  | .reading l g, s =>
    match d.read p with
    | .error e => Progress.ending (settle p l (.error (.ofRead p e)) s)
    | .ok content =>
      match l.byHeadings, g with
      | false, some g => (.parsing l g content, s)
      | _, _ => (.listing l content (Markdown.captures (Text.Utf8.decode content)), s)
  | .parsing l g content, s =>
    match x.parseFile p g content s with
    | (.error e, s) => Progress.ending (fail p e s)
    | (.ok parsed, s) => (.searching l g content parsed.tree, s)
  | .searching l g content tree, s =>
    match x.searchTree l.name g.query tree s with
    | (.error e, s) => Progress.ending (fail p e s)
    | (.ok captures, s) => (.listing l content captures, s)
  | .listing l content captures, s =>
    Progress.ending (settle p l (x.definitionsOf content (.ok captures)) s)
  | .ended outcome, s => (.ended outcome, s)

def finish (x : Extractor) (d : Disk) (report : Registry.LoadReport) (p : Path) :
    Progress → Session → Outcome × Session
  | .planned, s => x.outlineIn d report p s
  | .reading l g, s => x.outlineWith d p l g s
  | .parsing l g content, s =>
    let (captures, s) := x.grammarCaptures p l g content s
    settle p l (x.definitionsOf content captures) s
  | .searching l g content tree, s =>
    let (captures, s) := x.searchTree l.name g.query tree s
    settle p l (x.definitionsOf content captures) s
  | .listing l content captures, s => settle p l (x.definitionsOf content (.ok captures)) s
  | .ended outcome, s => (outcome, s)

/-- How many files are worked on at once. A request for zero workers is none, and no worker goes
without a file. -/
def workerCount (x : Extractor) (requested : Option Int) (files : Nat) : Int :=
  let wanted := match requested with
    | some n => if n = 0 then x.limits.maxWorkers else n
    | none => x.limits.maxWorkers
  min wanted (max files 1)

end Extractor

structure Job where
  path : Path
  progress : Progress

structure Pool where
  jobs : List Job
  session : Session

namespace Pool

def start (paths : List Path) (s : Session) : Pool := ⟨paths.map (⟨·, .planned⟩), s⟩

/-- Whether a job may go on. One that is under way always may; to take up a file, all before it must
be taken up and a worker must be free. -/
def mayProceed (workers : Int) (pool : Pool) (i : Nat) (job : Job) : Bool :=
  !job.progress.isPlanned || ((pool.jobs.take i).all (!·.progress.isPlanned) &&
    decide ((pool.jobs.countP (·.progress.isActive) : Nat) < workers))

/-- The next stage of job number `i`. When it has to wait or is done, nothing changes. -/
def advance (x : Extractor) (d : Disk) (report : Registry.LoadReport) (workers : Int) (pool : Pool)
    (i : Nat) : Pool :=
  match pool.jobs[i]? with
  | none => pool
  | some job =>
    if pool.mayProceed workers i job then
      let (progress, s) := x.proceed d report job.path job.progress pool.session
      ⟨pool.jobs.set i ⟨job.path, progress⟩, s⟩
    else pool

def run (x : Extractor) (d : Disk) (report : Registry.LoadReport) (workers : Int) (pool : Pool)
    (schedule : List Nat) : Pool :=
  schedule.foldl (advance x d report workers) pool

def outcomes (x : Extractor) (d : Disk) (report : Registry.LoadReport) :
    List Job → Session → List (Path × Outcome) × Session
  | [], s => ([], s)
  | job :: jobs, s =>
    let (outcome, s) := x.finish d report job.path job.progress s
    let (rest, s) := outcomes x d report jobs s
    ((job.path, outcome) :: rest, s)

end Pool

end SourceOutline
