import SourceOutline.Grammar.Registry

/-! Loading from several threads at once. A thread first looks without a lock; then it takes the
lock of its id, which is made under the lock of the registry, and looks again before it loads. So of
all threads that ask for one language, one loads and the others wait for it. -/
namespace SourceOutline.SingleFlight

/-- How far a thread is. Locks have numbers. -/
inductive Phase where
  | looking
  | choosing
  | wantingRegistry (language : Language)
  | makingLock (language : Language)
  | wantingLock (language : Language) (lock : Nat)
  | lookingAgain (language : Language) (lock : Nat)
  | loading (language : Language) (lock : Nat)
  | wantingStore (grammar : LoadedGrammar) (lock : Nat)
  | storing (grammar : LoadedGrammar) (lock : Nat)
  | releasing (answer : Answer) (lock : Nat)
  | finished (answer : Answer)

structure Thread where
  id : String
  phase : Phase

/-- What all threads share: the session, the holder of the registry's lock, the lock of each id and
the holders of those locks. -/
structure Shared where
  session : Session
  registryHolder : Option Nat
  locks : List (String × Nat)
  holders : List (Nat × Nat)

def Shared.lockOf (sh : Shared) (id : String) : Nat × Shared :=
  match sh.locks.lookup id with
  | some lock => (lock, sh)
  | none => (sh.locks.length, { sh with locks := sh.locks ++ [(id, sh.locks.length)] })

def Shared.release (sh : Shared) (lock : Nat) : Shared :=
  { sh with holders := sh.holders.filter (·.1 != lock) }

/-- One atomic step of thread number `me`, or `none` when it has to wait or is finished. -/
def step (r : Registry) (me : Nat) (t : Thread) (sh : Shared) : Option (Thread × Shared) :=
  match t.phase with
  | .looking =>
    match sh.session.loaded.lookup t.id with
    | some g => some ({ t with phase := .finished (.ok g) }, sh)
    | none => some ({ t with phase := .choosing }, sh)
  | .choosing =>
    match r.grammarLanguage? t.id with
    | none => some ({ t with phase := .finished (.error (.unsupportedLanguage t.id)) }, sh)
    | some l => some ({ t with phase := .wantingRegistry l }, sh)
  | .wantingRegistry l =>
    if sh.registryHolder.isSome then none
    else some ({ t with phase := .makingLock l }, { sh with registryHolder := some me })
  | .makingLock l =>
    let (lock, sh) := sh.lockOf t.id
    some ({ t with phase := .wantingLock l lock }, { sh with registryHolder := none })
  | .wantingLock l lock =>
    if (sh.holders.lookup lock).isSome then none
    else some ({ t with phase := .lookingAgain l lock },
      { sh with holders := (lock, me) :: sh.holders })
  | .lookingAgain l lock =>
    match sh.session.loaded.lookup t.id with
    | some g => some ({ t with phase := .releasing (.ok g) lock }, sh)
    | none => some ({ t with phase := .loading l lock }, sh)
  | .loading l lock =>
    match r.loadAnew l sh.session with
    | (.ok g, s) => some ({ t with phase := .wantingStore g lock }, { sh with session := s })
    | (.error e, s) =>
      some ({ t with phase := .releasing (.error e) lock }, { sh with session := s })
  | .wantingStore g lock =>
    if sh.registryHolder.isSome then none
    else some ({ t with phase := .storing g lock }, { sh with registryHolder := some me })
  | .storing g lock =>
    some ({ t with phase := .releasing (.ok g) lock },
      { sh with session := Registry.keep t.id g sh.session, registryHolder := none })
  | .releasing answer lock => some ({ t with phase := .finished answer }, sh.release lock)
  | .finished _ => none

structure Scene where
  threads : List Thread
  shared : Shared

namespace Scene

/-- Threads that ask for the given ids, before their first step. Locks that earlier calls made are
there, and free. -/
def start (ids : List String) (locks : List (String × Nat)) (s : Session) : Scene :=
  ⟨ids.map fun id => ⟨id, .looking⟩, ⟨s, none, locks, []⟩⟩

/-- The next step of thread number `me`. When it has to wait or is finished, nothing changes. -/
def advance (r : Registry) (c : Scene) (me : Nat) : Scene :=
  match c.threads[me]? with
  | none => c
  | some t =>
    match step r me t c.shared with
    | none => c
    | some (t, sh) => ⟨c.threads.set me t, sh⟩

def run (r : Registry) (c : Scene) (schedule : List Nat) : Scene := schedule.foldl (advance r) c

end Scene

def Thread.answer? (t : Thread) : Option Answer :=
  match t.phase with
  | .finished a => some a
  | _ => none

def stepsPerThread : Nat := 10

def rounds (count threads : Nat) : List Nat := (List.replicate count (List.range threads)).flatten

/-- The answers of threads that ask for the given ids at once. In every round some thread that is
not finished makes a step, so this many rounds suffice. -/
def loadTogether (r : Registry) (ids : List String) (s : Session) : List Answer × Session :=
  let c := (Scene.start ids [] s).run r (rounds (stepsPerThread * ids.length) ids.length)
  (c.threads.filterMap Thread.answer?, c.shared.session)

end SourceOutline.SingleFlight
