import Mathlib
import SourceOutline.Grammar.Callers
import SourceOutline.Proofs.Grammar.Linearization

/-! Callers never block each other for good. The registry's lock is held over one step, in which its
holder waits for nothing; and who waits for it may hold the lock of an id, but no one waits for the
lock of an id inside the registry. So of the callers that are not done some can always go on, and
since every step leaves less to do, all can come to their ends. -/
namespace SourceOutline.SingleFlight

variable {r : Registry} {me : Nat} {sh sh' : Shared}

inductive Caller.Act (r : Registry) (me : Nat) (sh : Shared) : Caller → Caller → Shared → Prop
  | begun (id : String) (calls : List Call) (replies : List Reply) :
    Act r me sh ⟨.idle, .load id :: calls, replies⟩ ⟨.loading ⟨id, .looking⟩, calls, replies⟩ sh
  | asked (calls : List Call) (replies : List Reply) :
    Act r me sh ⟨.idle, .list :: calls, replies⟩ ⟨.wantingList, calls, replies⟩ sh
  | moved (t t' : Thread) (sh' : Shared) (calls : List Call) (replies : List Reply)
      (hid : t'.id = t.id)
      (h : Move r me t.id sh t.phase t'.phase sh') :
    Act r me sh ⟨.loading t, calls, replies⟩ ⟨.loading t', calls, replies⟩ sh'
  | returned (t : Thread) (answer : Answer) (calls : List Call) (replies : List Reply)
      (h : t.answer? = some answer) :
    Act r me sh ⟨.loading t, calls, replies⟩ ⟨.idle, calls, replies ++ [.loaded answer]⟩ sh
  | entered (calls : List Call) (replies : List Reply) (h : sh.registryHolder = none) :
    Act r me sh ⟨.wantingList, calls, replies⟩ ⟨.listing, calls, replies⟩ { sh with
      registryHolder := some me }
  | listed (calls : List Call) (replies : List Reply) :
    Act r me sh ⟨.listing, calls, replies⟩ ⟨.idle, calls, replies ++ [.listed sh.session.loadedIds]⟩
      { sh with registryHolder := none }

theorem Caller.Act.of_step {c c' : Caller} (h : c.step r me sh = some (c', sh')) :
    c.Act r me sh c' sh' := by
  obtain ⟨activity, calls, replies⟩ := c
  cases activity with
  | idle =>
    cases calls with
    | nil => cases h
    | cons call calls =>
      cases call with
      | load id =>
        obtain ⟨rfl, rfl⟩ := Prod.mk.inj (Option.some.inj h)
        exact .begun id calls replies
      | list =>
        obtain ⟨rfl, rfl⟩ := Prod.mk.inj (Option.some.inj h)
        exact .asked calls replies
  | loading t =>
    simp only [Caller.step] at h
    split at h
    · rename_i answer hanswer
      obtain ⟨rfl, rfl⟩ := Prod.mk.inj (Option.some.inj h)
      exact .returned t answer calls replies hanswer
    · split at h
      · cases h
      · rename_i t' sh'' hstep
        obtain ⟨rfl, rfl⟩ := Prod.mk.inj (Option.some.inj h)
        obtain ⟨hid, hmove⟩ := Move.of_step hstep
        exact .moved t t' sh'' calls replies hid hmove
  | wantingList =>
    simp only [Caller.step] at h
    split at h
    · cases h
    · rename_i hfree
      obtain ⟨rfl, rfl⟩ := Prod.mk.inj (Option.some.inj h)
      exact .entered calls replies (Option.not_isSome_iff_eq_none.mp hfree)
  | listing =>
    obtain ⟨rfl, rfl⟩ := Prod.mk.inj (Option.some.inj h)
    exact .listed calls replies

namespace Phase

@[simp] def inRegistry : Phase → Bool
  | .makingLock _ => true
  | .storing _ _ => true
  | _ => false

@[simp] def left : Phase → Nat
  | .looking => 10
  | .choosing => 9
  | .wantingRegistry _ => 8
  | .makingLock _ => 7
  | .wantingLock _ _ => 6
  | .lookingAgain _ _ => 5
  | .loading _ _ => 4
  | .wantingStore _ _ => 3
  | .storing _ _ => 2
  | .releasing _ _ => 1
  | .finished _ => 0

end Phase

namespace Caller

@[simp] def thread? (c : Caller) : Option Thread :=
  match c.activity with
  | .loading t => some t
  | _ => none

def held? (c : Caller) : Option Nat := c.thread?.bind (·.phase.held?)

def inRegistry (c : Caller) : Bool :=
  match c.activity with
  | .loading t => t.phase.inRegistry
  | .listing => true
  | _ => false

/-- The caller is back from its load, with a grammar or an error, or in no load yet. -/
def hasReturned (c : Caller) : Bool :=
  match c.activity with
  | .idle => true
  | .loading t => t.answer?.isSome
  | _ => false

def left (c : Caller) : Nat :=
  12 * c.calls.length + match c.activity with
    | .idle => 0
    | .loading t => t.phase.left + 1
    | .wantingList => 2
    | .listing => 1

end Caller

/-- How one step of `me` can change who holds the registry's lock, by whether `me` is inside before
and after. -/
inductive Passes (me : Nat) : Bool → Bool → Option Nat → Option Nat → Prop
  | stays (inside : Bool) (holder : Option Nat) : Passes me inside inside holder holder
  | enters : Passes me false true none (some me)
  | leaves (holder : Option Nat) : Passes me true false holder none

/-- How one step of `me` can change who holds the locks of ids, by the lock that `me` holds before
and after. -/
inductive Handles (me : Nat) : Option Nat → Option Nat → List (Nat × Nat) → List (Nat × Nat) → Prop
  | keeps (held : Option Nat) (holders : List (Nat × Nat)) : Handles me held held holders holders
  | takes (lock : Nat) (holders : List (Nat × Nat)) :
      Handles me none (some lock) holders ((lock, me) :: holders)
  | frees (lock : Nat) (holders : List (Nat × Nat)) :
    Handles me (some lock) none holders (holders.filter (·.1 != lock))

theorem Move.locking {id : String} {phase phase' : Phase} (h : Move r me id sh phase phase' sh') :
    Passes me phase.inRegistry phase'.inRegistry sh.registryHolder sh'.registryHolder ∧
      Handles me phase.held? phase'.held? sh.holders sh'.holders ∧ phase'.left < phase.left := by
  cases h with
  | entered l h => exact ⟨h ▸ .enters, .keeps _ _, by simp⟩
  | made l => exact ⟨.leaves _, lockOf_holders sh id ▸ .keeps _ _, by simp⟩
  | acquired l lock h => exact ⟨.stays _ _, .takes _ _, by simp⟩
  | enteredAgain g lock h => exact ⟨h ▸ .enters, .keeps _ _, by simp⟩
  | stored g lock => exact ⟨.leaves _, .keeps _ _, by simp⟩
  | released answer lock => exact ⟨.stays _ _, .frees _ _, by simp⟩
  | _ => exact ⟨.stays _ _, .keeps _ _, by simp⟩

theorem Caller.Act.locking {c c' : Caller} (h : c.Act r me sh c' sh') :
    Passes me c.inRegistry c'.inRegistry sh.registryHolder sh'.registryHolder ∧
      Handles me c.held? c'.held? sh.holders sh'.holders ∧ c'.left < c.left := by
  cases h with
  | begun id calls replies =>
    exact ⟨.stays _ _, .keeps _ _, by simp only [left, Phase.left, List.length_cons]; omega⟩
  | asked calls replies =>
    exact ⟨.stays _ _, .keeps _ _, by simp only [left, List.length_cons]; omega⟩
  | moved t t' _ calls replies hid hmove =>
    obtain ⟨hpasses, hhandles, hleft⟩ := hmove.locking
    exact ⟨hpasses, hhandles, by simpa [left] using hleft⟩
  | returned t answer calls replies hanswer =>
    obtain ⟨id, phase⟩ := t
    cases phase with
    | finished a => exact ⟨.stays _ _, .keeps _ _, by simp [left]⟩
    | _ => cases hanswer
  | entered calls replies hfree => exact ⟨hfree ▸ .enters, .keeps _ _, by simp [left]⟩
  | listed calls replies => exact ⟨.leaves _, .keeps _ _, by simp [left]⟩

theorem Thread.sound_looking (r : Registry) (sh : Shared) (me : Nat) (id : String) :
    Thread.Sound r sh me ⟨id, .looking⟩ :=
  ⟨by simp, by simp, by simp, by simp, by simp, by simp⟩

theorem Thread.Sound.of_holder {t : Thread} (h : t.Sound r sh me) (holder : Option Nat) :
    t.Sound r { sh with registryHolder := holder } me :=
  ⟨h.language, h.supported, h.lock, h.holder, h.fresh, h.answered⟩

theorem Caller.Act.sound {c c' : Caller} (h : c.Act r me sh c' sh')
    (hc : ∀ t, c.thread? = some t → t.Sound r sh me) :
    (∀ t, c'.thread? = some t → t.Sound r sh' me) ∧
      (∀ (j : Nat) (u : Thread), j ≠ me → u.Sound r sh j → u.Sound r sh' j) ∧
      ∀ id lock, sh.locks.lookup id = some lock → sh'.locks.lookup id = some lock := by
  cases h with
  | begun id calls replies =>
    refine ⟨fun t ht => ?_, fun _ _ _ hu => hu, fun _ _ hlock => hlock⟩
    cases ht
    exact Thread.sound_looking r sh me id
  | asked calls replies => exact ⟨by simp, fun _ _ _ hu => hu, fun _ _ hlock => hlock⟩
  | moved t t' _ calls replies hid hmove =>
    have ht := hc t rfl
    refine ⟨fun u hu => ?_, fun j u hj hu => hu.of_other ht hmove hj, (hmove.guarantee ht.holder).1⟩
    cases hu
    have hown := hmove.sound ht
    rw [← hid] at hown
    exact hown
  | returned t answer calls replies hanswer =>
    exact ⟨by simp, fun _ _ _ hu => hu, fun _ _ hlock => hlock⟩
  | entered calls replies hfree =>
    exact ⟨by simp, fun _ _ _ hu => hu.of_holder _, fun _ _ hlock => hlock⟩
  | listed calls replies => exact ⟨by simp, fun _ _ _ hu => hu.of_holder _, fun _ _ hlock => hlock⟩

theorem Passes.holder {inside : Nat → Bool} {after : Bool} {holder holder' : Option Nat}
    (h : Passes me (inside me) after holder holder') (hinside : ∀ j, holder = some j ↔ inside j)
    (j : Nat) : holder' = some j ↔ Function.update inside me after j := by
  generalize hme : inside me = before at h
  cases h with
  | stays =>
    rw [hinside, ← hme, Function.update_eq_self]
  | enters =>
    by_cases hj : j = me
    · subst hj
      simp
    · have hout : ¬inside j := fun hin => by cases (hinside j).mpr hin
      simp [hj, Ne.symm hj, hout]
  | leaves =>
    by_cases hj : j = me
    · subst hj
      simp
    · have hholder := (hinside me).mpr hme
      have hout : ¬inside j :=
        fun hin => hj (Option.some.inj (((hinside j).mpr hin).symm.trans hholder))
      simp [hj, hout]

theorem Handles.holders {held : Nat → Option Nat} {after : Option Nat}
    {holders holders' : List (Nat × Nat)} (h : Handles me (held me) after holders holders')
    (hheld : ∀ lock j, (lock, j) ∈ holders → held j = some lock) {lock j : Nat}
    (hmem : (lock, j) ∈ holders') : Function.update held me after j = some lock := by
  generalize hme : held me = before at h
  cases h with
  | keeps =>
    rw [← hme, Function.update_eq_self]
    exact hheld lock j hmem
  | takes taken =>
    rcases List.mem_cons.mp hmem with heq | hmem
    · cases heq
      simp
    · have hj := hheld lock j hmem
      have hne : j ≠ me := by
        rintro rfl
        rw [hme] at hj
        cases hj
      simpa [hne] using hj
  | frees freed =>
    obtain ⟨hmem, hother⟩ := List.mem_filter.mp hmem
    have hj := hheld lock j hmem
    have hne : j ≠ me := by
      rintro rfl
      rw [hme] at hj
      simp [Option.some.inj hj] at hother
    simpa [hne] using hj

theorem step_isSome {t : Thread} (hanswer : t.answer? = none)
    (hregistry : t.phase.inRegistry ∨ sh.registryHolder = none)
    (hlock : ∀ l lock, t.phase = .wantingLock l lock → sh.holders.lookup lock = none) :
    (step r me t sh).isSome := by
  obtain ⟨id, phase⟩ := t
  cases phase with
  | looking =>
    simp only [step]
    split <;> rfl
  | choosing =>
    simp only [step]
    split <;> rfl
  | wantingRegistry l => simp [step, hregistry.resolve_left (by simp)]
  | makingLock l => rfl
  | wantingLock l lock => simp [step, hlock l lock rfl]
  | lookingAgain l lock =>
    simp only [step]
    split <;> rfl
  | loading l lock =>
    simp only [step]
    split <;> rfl
  | wantingStore g lock => simp [step, hregistry.resolve_left (by simp)]
  | storing g lock => rfl
  | releasing answer lock => rfl
  | finished answer => cases hanswer

namespace Caller

variable {c : Caller}

theorem step_loading_isSome {t : Thread} {calls : List Call} {replies : List Reply}
    (h : t.answer? = none → (SingleFlight.step r me t sh).isSome) :
    (Caller.step r me ⟨.loading t, calls, replies⟩ sh).isSome := by
  simp only [Caller.step]
  cases hanswer : t.answer? with
  | some answer => rfl
  | none =>
    obtain ⟨next, hnext⟩ := Option.isSome_iff_exists.mp (h hanswer)
    simp [hnext]

theorem step_of_inRegistry (h : c.inRegistry) : (c.step r me sh).isSome := by
  obtain ⟨activity, calls, replies⟩ := c
  cases activity with
  | idle => cases h
  | loading t =>
    refine step_loading_isSome fun hanswer => step_isSome hanswer (.inl h) fun l lock hphase => ?_
    simp [inRegistry, hphase] at h
  | wantingList => cases h
  | listing => rfl

theorem step_of_held (hfree : sh.registryHolder = none) (h : c.held?.isSome) :
    (c.step r me sh).isSome := by
  obtain ⟨activity, calls, replies⟩ := c
  cases activity with
  | loading t =>
    refine step_loading_isSome fun hanswer => step_isSome hanswer (.inr hfree) fun l lock hphase =>
      ?_
    simp [held?, hphase] at h
  | _ => cases h

theorem step_or_held (hfree : sh.registryHolder = none) (h : c.isDone = false) :
    (c.step r me sh).isSome ∨ ∃ lock holder, sh.holders.lookup lock = some holder := by
  obtain ⟨activity, calls, replies⟩ := c
  cases activity with
  | idle =>
    cases calls with
    | nil => cases h
    | cons call calls => cases call <;> exact .inl rfl
  | loading t =>
    by_cases hheld : ∃ lock holder, sh.holders.lookup lock = some holder
    · exact .inr hheld
    · refine .inl (step_loading_isSome fun hanswer => step_isSome hanswer (.inr hfree)
        fun l lock _ => ?_)
      simp only [not_exists] at hheld
      exact Option.eq_none_iff_forall_ne_some.mpr (hheld lock)
  | wantingList => exact .inl (by simp [Caller.step, hfree])
  | listing => exact .inl rfl

end Caller

namespace Crowd

variable {c : Crowd}

def inside (c : Crowd) (j : Nat) : Bool := c.callers[j]?.any Caller.inRegistry

def heldBy (c : Crowd) (j : Nat) : Option Nat := c.callers[j]?.bind Caller.held?

/-- The holder of the registry's lock is the caller inside, a lock of an id is with the caller that
holds it, and every load may rely on what it may rely on alone. -/
structure Sound (r : Registry) (c : Crowd) : Prop where
  registry : ∀ j, c.shared.registryHolder = some j ↔ c.inside j
  holders : ∀ lock j, (lock, j) ∈ c.shared.holders → c.heldBy j = some lock
  threads : ∀ j t, c.callers[j]?.bind Caller.thread? = some t → t.Sound r c.shared j

theorem advance_cases (r : Registry) (c : Crowd) (me : Nat) :
    c.advance r me = c ∨ ∃ caller caller' sh, c.callers[me]? = some caller ∧
      caller.Act r me c.shared caller' sh ∧ c.advance r me = ⟨c.callers.set me caller', sh⟩ := by
  unfold advance
  split
  · exact .inl rfl
  · rename_i caller hcaller
    split
    · exact .inl rfl
    · rename_i caller' sh hstep
      exact .inr ⟨caller, caller', sh, hcaller, .of_step hstep, rfl⟩

theorem run_keeps {P : Crowd → Prop} (hadvance : ∀ c me, P c → P (c.advance r me)) (hc : P c)
    (schedule : List Nat) : P (c.run r schedule) := by
  unfold run
  induction schedule generalizing c with
  | nil => exact hc
  | cons me rest ih => exact ih (hadvance c me hc)

theorem sound_start (r : Registry) (calls : List (List Call)) (locks : List (String × Nat))
    (s : Session) : (start calls locks s).Sound r := by
  have hidle : ∀ (j : Nat) (caller : Caller), (start calls locks s).callers[j]? = some caller →
      caller.activity = .idle := by
    intro j caller hcaller
    obtain ⟨calls, -, rfl⟩ := List.mem_map.mp (List.mem_of_getElem? hcaller)
    rfl
  refine ⟨fun j => ⟨fun h => (by cases h), fun h => ?_⟩,
    fun lock j h => (by cases h), fun j t h => ?_⟩
  · cases hcaller : (start calls locks s).callers[j]? with
    | none => simp [inside, hcaller] at h
    | some caller => simp [inside, hcaller, Caller.inRegistry, hidle j caller hcaller] at h
  · obtain ⟨caller, hcaller, hthread⟩ := Option.bind_eq_some_iff.mp h
    simp [hidle j caller hcaller] at hthread

section Set

variable {caller : Caller} (hcaller : c.callers[me]? = some caller) (caller' : Caller)

include hcaller

theorem getElem?_set (j : Nat) :
    (c.callers.set me caller')[j]? = Function.update (fun j => c.callers[j]?) me
      (some caller') j := by
  by_cases hj : j = me
  · subst hj
    rw [List.getElem?_set_self (List.getElem?_eq_some_iff.mp hcaller).1, Function.update_self]
  · rw [List.getElem?_set_ne (Ne.symm hj), Function.update_of_ne hj]

theorem inside_set :
    inside ⟨c.callers.set me caller', sh⟩ = Function.update c.inside me caller'.inRegistry := by
  funext j
  unfold inside
  rw [getElem?_set hcaller]
  by_cases hj : j = me
  · subst hj
    simp
  · simp [hj]

theorem heldBy_set :
    heldBy ⟨c.callers.set me caller', sh⟩ = Function.update c.heldBy me caller'.held? := by
  funext j
  unfold heldBy
  rw [getElem?_set hcaller]
  by_cases hj : j = me
  · subst hj
    simp
  · simp [hj]

end Set

theorem Sound.advance (hc : c.Sound r) (me : Nat) : (c.advance r me).Sound r := by
  rcases advance_cases r c me with heq | ⟨caller, caller', sh, hcaller, hact, heq⟩
  · rwa [heq]
  · rw [heq]
    obtain ⟨hpasses, hhandles, -⟩ := hact.locking
    have hinside : c.inside me = caller.inRegistry := by simp [inside, hcaller]
    have hheld : c.heldBy me = caller.held? := by simp [heldBy, hcaller]
    rw [← hinside] at hpasses
    rw [← hheld] at hhandles
    refine ⟨fun j => ?_, fun lock j hmem => ?_, fun j t ht => ?_⟩
    · rw [inside_set hcaller]
      exact hpasses.holder hc.registry j
    · rw [heldBy_set hcaller]
      exact hhandles.holders hc.holders hmem
    · obtain ⟨hown, hothers, -⟩ :=
        hact.sound fun t ht => hc.threads me t (by rw [hcaller]; exact ht)
      rw [getElem?_set hcaller] at ht
      by_cases hj : j = me
      · subst hj
        rw [Function.update_self] at ht
        exact hown t ht
      · rw [Function.update_of_ne hj] at ht
        exact hothers j t hj (hc.threads j t ht)

theorem Sound.run (hc : c.Sound r) (schedule : List Nat) : (c.run r schedule).Sound r :=
  run_keeps (fun _ me h => h.advance me) hc schedule

theorem Sound.lookup_locks (hc : c.Sound r) (schedule : List Nat) {id : String} {lock : Nat}
    (hlock : c.shared.locks.lookup id = some lock) :
    (c.run r schedule).shared.locks.lookup id = some lock := by
  refine (run_keeps (P := fun c => c.Sound r ∧ c.shared.locks.lookup id = some lock) ?_
    ⟨hc, hlock⟩ schedule).2
  rintro c me ⟨hc, hlock⟩
  refine ⟨hc.advance me, ?_⟩
  rcases advance_cases r c me with heq | ⟨caller, caller', sh, hcaller, hact, heq⟩
  · rwa [heq]
  · rw [heq]
    exact (hact.sound fun t ht => hc.threads me t (by rw [hcaller]; exact ht)).2.2 id lock hlock

/-- All callers have made their calls. -/
def Done (c : Crowd) : Prop := ∀ caller ∈ c.callers, caller.isDone

theorem Sound.exists_step (hc : c.Sound r) (hbusy : ¬c.Done) :
    ∃ (me : Nat) (caller : Caller), c.callers[me]? = some caller ∧
      (caller.step r me c.shared).isSome := by
  cases hholder : c.shared.registryHolder with
  | some j =>
    have hinside := (hc.registry j).mp hholder
    cases hcaller : c.callers[j]? with
    | none => simp [inside, hcaller] at hinside
    | some caller =>
      exact ⟨j, caller, hcaller,
        Caller.step_of_inRegistry (by simpa [inside, hcaller] using hinside)⟩
  | none =>
    simp only [Done, not_forall] at hbusy
    obtain ⟨caller, hmem, hbusy⟩ := hbusy
    obtain ⟨me, hcaller⟩ := List.getElem?_of_mem hmem
    have hgoes : (caller.step r me c.shared).isSome ∨
        ∃ lock holder, c.shared.holders.lookup lock = some holder :=
      Caller.step_or_held hholder (by simpa using hbusy)
    rcases hgoes with hstep | ⟨lock, j, hlock⟩
    · exact ⟨me, caller, hcaller, hstep⟩
    · have hheld := hc.holders lock j (mem_of_lookup hlock)
      obtain ⟨other, hother, hheld⟩ := Option.bind_eq_some_iff.mp hheld
      exact ⟨j, other, hother, Caller.step_of_held hholder (by rw [hheld]; rfl)⟩

def left (c : Crowd) : Nat := (c.callers.map Caller.left).sum

theorem left_advance {caller : Caller} (hcaller : c.callers[me]? = some caller)
    (hstep : (caller.step r me c.shared).isSome) : (c.advance r me).left < c.left := by
  obtain ⟨⟨caller', sh⟩, hnext⟩ := Option.isSome_iff_exists.mp hstep
  have hless : caller'.left < caller.left := (Caller.Act.of_step hnext).locking.2.2
  have hadvance : c.advance r me = ⟨c.callers.set me caller', sh⟩ := by
    simp only [advance, hcaller, hnext]
  obtain ⟨hlt, hget⟩ := List.getElem?_eq_some_iff.mp hcaller
  have hsplit : c.callers = c.callers.take me ++ caller :: c.callers.drop (me + 1) := by
    rw [← hget, ← List.drop_eq_getElem_cons hlt, List.take_append_drop]
  have hbefore :
      c.left =
    (((c.callers.take me ++ caller :: c.callers.drop (me + 1)).map Caller.left)).sum := by
    rw [← hsplit, left]
  rw [hadvance, hbefore, left, List.set_eq_take_append_cons_drop, if_pos hlt]
  simp only [List.map_append, List.map_cons, List.sum_append, List.sum_cons]
  omega

theorem Sound.exists_run_done {c : Crowd} (hc : c.Sound r) :
    ∃ schedule, (c.run r schedule).Done := by
  by_cases hdone : c.Done
  · exact ⟨[], hdone⟩
  · obtain ⟨me, caller, hcaller, hstep⟩ := hc.exists_step hdone
    have hless := left_advance hcaller hstep
    obtain ⟨schedule, hend⟩ := (hc.advance me).exists_run_done
    exact ⟨me :: schedule, hend⟩
termination_by c.left

theorem Sound.free_of_hasReturned (hc : c.Sound r) {caller : Caller}
    (hcaller : c.callers[me]? = some caller) (hreturned : caller.hasReturned) :
    c.shared.registryHolder ≠ some me ∧ ∀ lock, (lock, me) ∉ c.shared.holders := by
  have hout : caller.inRegistry = false ∧ caller.held? = none := by
    obtain ⟨activity, calls, replies⟩ := caller
    cases activity with
    | idle => exact ⟨rfl, rfl⟩
    | loading t =>
      obtain ⟨id, phase⟩ := t
      cases phase with
      | finished answer => exact ⟨rfl, rfl⟩
      | _ => cases hreturned
    | _ => cases hreturned
  constructor
  · intro hholder
    simpa [inside, hcaller, hout.1] using (hc.registry me).mp hholder
  · intro lock hmem
    simpa [heldBy, hcaller, hout.2] using hc.holders lock me hmem

/-- The lock that caller number `me` waits for or holds in a load for the given id. -/
def lockUsed? (c : Crowd) (me : Nat) (id : String) : Option Nat :=
  (c.callers[me]?.bind Caller.thread?).bind fun t => if t.id = id then t.phase.lock? else none

theorem Sound.lookup_of_lockUsed? (hc : c.Sound r) {id : String} {lock : Nat}
    (h : c.lockUsed? me id = some lock) : c.shared.locks.lookup id = some lock := by
  obtain ⟨t, ht, hlock⟩ := Option.bind_eq_some_iff.mp h
  split at hlock
  · rename_i hid
    subst hid
    exact (hc.threads me t ht).lock lock hlock
  · cases hlock

end Crowd

/-- Callers that load and list grammars, in any order of their steps: while some are not done, some
can go on, and all can come to their ends; who has returned from a load holds no lock; and for one
id there is one lock, whenever and by whomever it is used. -/
theorem concurrent_calls_never_deadlock (r : Registry) (calls : List (List Call))
    (locks : List (String × Nat)) (s : Session) (schedule : List Nat) :
    let c := (Crowd.start calls locks s).run r schedule
    (¬c.Done → ∃ (me : Nat) (caller : Caller), c.callers[me]? = some caller ∧
      (caller.step r me c.shared).isSome) ∧
    (∃ more, (c.run r more).Done) ∧
    (∀ (me : Nat) (caller : Caller), c.callers[me]? = some caller → caller.hasReturned →
      c.shared.registryHolder ≠ some me ∧ ∀ lock, (lock, me) ∉ c.shared.holders) ∧
    ∀ more i j id lock lock', c.lockUsed? i id = some lock →
      (c.run r more).lockUsed? j id = some lock' → lock = lock' := by
  intro c
  have hc : c.Sound r := (Crowd.sound_start r calls locks s).run schedule
  refine ⟨hc.exists_step, hc.exists_run_done, fun me caller => hc.free_of_hasReturned, ?_⟩
  intro more i j id lock lock' hused hused'
  have hnow := hc.lookup_locks more (hc.lookup_of_lockUsed? hused)
  rw [(hc.run more).lookup_of_lockUsed? hused'] at hnow
  exact (Option.some.inj hnow).symm

/-- Four callers: one has loaded a grammar and waits for the registry to store it, one waits for the
lock that the first one holds, one is in the registry, and one has failed. -/
def waiting : Crowd :=
  (Crowd.start [[.load "lua"], [.load "lua"], [.list, .load "go"], [.load "zig"]] [] .start).run
    flaky [0, 0, 0, 0, 0, 0, 0, 0, 1, 1, 1, 1, 1, 2, 2, 3, 3, 3]

/-- Neither the first caller nor the second can go on; but some caller can, the failed one holds no
lock, and the two that load one language use one lock. -/
theorem concurrent_calls_never_deadlock_waiting :
    ((List.range 2).all fun me =>
      (waiting.callers[me]?.bind (·.step flaky me waiting.shared)).isNone) ∧
      (∃ (me : Nat) (caller : Caller), waiting.callers[me]? = some caller ∧
        (caller.step flaky me waiting.shared).isSome) ∧
      (waiting.shared.registryHolder ≠ some 3 ∧ ∀ lock, (lock, 3) ∉ waiting.shared.holders) ∧
      ∃ lock, waiting.lockUsed? 0 "lua" = some lock ∧ waiting.lockUsed? 1 "lua" = some lock := by
  obtain ⟨hstep, -, hfree, hlocks⟩ := concurrent_calls_never_deadlock flaky
    [[.load "lua"], [.load "lua"], [.list, .load "go"], [.load "zig"]] [] .start
    [0, 0, 0, 0, 0, 0, 0, 0, 1, 1, 1, 1, 1, 2, 2, 3, 3, 3]
  have hbusy : ¬waiting.Done := by
    unfold Crowd.Done
    decide +kernel
  have hfailed : ∃ caller, waiting.callers[3]? = some caller ∧ caller.hasReturned := by
    have hany : waiting.callers[3]?.any Caller.hasReturned := by decide +kernel
    cases hcaller : waiting.callers[3]? with
    | none => simp [hcaller] at hany
    | some caller => exact ⟨caller, rfl, by simpa [hcaller] using hany⟩
  obtain ⟨caller, hcaller, hreturned⟩ := hfailed
  obtain ⟨lock, hused⟩ : ∃ lock, waiting.lockUsed? 0 "lua" = some lock :=
    Option.isSome_iff_exists.mp (by decide +kernel)
  obtain ⟨lock', hused'⟩ : ∃ lock, waiting.lockUsed? 1 "lua" = some lock :=
    Option.isSome_iff_exists.mp (by decide +kernel)
  have hsame : lock = lock' := hlocks [] 0 1 "lua" lock lock' hused hused'
  exact ⟨by decide +kernel, hstep hbusy, hfree 3 caller hcaller hreturned, lock,
    hused, hsame ▸ hused'⟩

end SourceOutline.SingleFlight
