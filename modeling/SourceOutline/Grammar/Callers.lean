import SourceOutline.Grammar.SingleFlight

/-! Threads that make one call after another. A call loads a grammar or asks which grammars are
loaded; to answer the latter the registry's lock is taken as it is to make the lock of an id or to
store a grammar. -/
namespace SourceOutline.SingleFlight

inductive Call where
  | load (id : String)
  | list

inductive Reply where
  | loaded (answer : Answer)
  | listed (ids : List String)

/-- What a caller is doing. It returns from a load when the load has its answer. -/
inductive Activity where
  | idle
  | loading (t : Thread)
  | wantingList
  | listing

structure Caller where
  activity : Activity
  calls : List Call
  replies : List Reply

namespace Caller

/-- One atomic step of caller number `me`, or `none` when it has to wait or has no call left. -/
def step (r : Registry) (me : Nat) (c : Caller) (sh : Shared) : Option (Caller × Shared) :=
  match c.activity with
  | .idle =>
    match c.calls with
    | [] => none
    | .load id :: calls => some (⟨.loading ⟨id, .looking⟩, calls, c.replies⟩, sh)
    | .list :: calls => some (⟨.wantingList, calls, c.replies⟩, sh)
  | .loading t =>
    match t.answer? with
    | some answer => some (⟨.idle, c.calls, c.replies ++ [.loaded answer]⟩, sh)
    | none =>
      match SingleFlight.step r me t sh with
      | none => none
      | some (t, sh) => some (⟨.loading t, c.calls, c.replies⟩, sh)
  | .wantingList =>
    if sh.registryHolder.isSome then none
    else some (⟨.listing, c.calls, c.replies⟩, { sh with registryHolder := some me })
  | .listing =>
    some (⟨.idle, c.calls, c.replies ++ [.listed sh.session.loadedIds]⟩,
      { sh with registryHolder := none })

def isDone (c : Caller) : Bool :=
  match c.activity with
  | .idle => c.calls.isEmpty
  | _ => false

end Caller

structure Crowd where
  callers : List Caller
  shared : Shared

namespace Crowd

/-- Callers with the given calls, before the first of them. Locks that earlier calls made are there,
and free. -/
def start (calls : List (List Call)) (locks : List (String × Nat)) (s : Session) : Crowd :=
  ⟨calls.map fun calls => ⟨.idle, calls, []⟩, ⟨s, none, locks, []⟩⟩

/-- The next step of caller number `me`. When it has to wait or is done, nothing changes. -/
def advance (r : Registry) (c : Crowd) (me : Nat) : Crowd :=
  match c.callers[me]? with
  | none => c
  | some caller =>
    match caller.step r me c.shared with
    | none => c
    | some (caller, sh) => ⟨c.callers.set me caller, sh⟩

def run (r : Registry) (c : Crowd) (schedule : List Nat) : Crowd := schedule.foldl (advance r) c

end Crowd

end SourceOutline.SingleFlight
