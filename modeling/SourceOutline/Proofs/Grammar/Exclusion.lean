import SourceOutline.Grammar.SingleFlight
import SourceOutline.Proofs.Grammar.Ledger

/-! Threads that load at once keep out of each other's way. A thread past its second look holds the
lock of its id, so for each id at most one thread loads; it finds no grammar kept when it begins,
and none until it stores its own. -/
namespace SourceOutline.SingleFlight

variable {r : Registry}

/-- All that a step of thread number `me` for `id` can do, by the phase it starts in. -/
inductive Move (r : Registry) (me : Nat) (id : String) (sh : Shared) : Phase → Phase → Shared → Prop
  | found (g : LoadedGrammar) (h : sh.session.ledger.kept id = some g) :
    Move r me id sh .looking (.finished (.ok g)) sh
  | missed (h : sh.session.ledger.kept id = none) : Move r me id sh .looking .choosing sh
  | unsupported (h : r.grammarLanguage? id = none) :
    Move r me id sh .choosing (.finished (.error (.unsupportedLanguage id))) sh
  | chosen (l : Language) (h : r.grammarLanguage? id = some l) :
      Move r me id sh .choosing (.wantingRegistry l) sh
  | entered (l : Language) (h : sh.registryHolder = none) :
    Move r me id sh (.wantingRegistry l) (.makingLock l) { sh with registryHolder := some me }
  | made (l : Language) :
    Move r me id sh (.makingLock l) (.wantingLock l (sh.lockOf id).1) { (sh.lockOf id).2 with
      registryHolder := none }
  | acquired (l : Language) (lock : Nat) (h : sh.holders.lookup lock = none) :
    Move r me id sh (.wantingLock l lock) (.lookingAgain l lock) { sh with
      holders := (lock, me) :: sh.holders }
  | foundAgain (l : Language) (lock : Nat) (g : LoadedGrammar)
      (h : sh.session.ledger.kept id = some g) :
    Move r me id sh (.lookingAgain l lock) (.releasing (.ok g) lock) sh
  | missedAgain (l : Language) (lock : Nat) (h : sh.session.ledger.kept id = none) :
    Move r me id sh (.lookingAgain l lock) (.loading l lock) sh
  | loaded (l : Language) (lock : Nat) (g : LoadedGrammar)
      (h : (r.loadAnew l sh.session).1 = .ok g) :
    Move r me id sh (.loading l lock) (.wantingStore g lock) { sh with
      session := (r.loadAnew l sh.session).2 }
  | failed (l : Language) (lock : Nat) (e : OutlineError)
      (h : (r.loadAnew l sh.session).1 = .error e) :
    Move r me id sh (.loading l lock) (.releasing (.error e) lock) { sh with
      session := (r.loadAnew l sh.session).2 }
  | enteredAgain (g : LoadedGrammar) (lock : Nat) (h : sh.registryHolder = none) :
    Move r me id sh (.wantingStore g lock) (.storing g lock) { sh with registryHolder := some me }
  | stored (g : LoadedGrammar) (lock : Nat) :
    Move r me id sh (.storing g lock) (.releasing (.ok g) lock)
      { sh with session := Registry.keep id g sh.session, registryHolder := none }
  | released (answer : Answer) (lock : Nat) :
    Move r me id sh (.releasing answer lock) (.finished answer) (sh.release lock)

theorem Move.of_step {me : Nat} {t t' : Thread} {sh sh' : Shared}
    (h : step r me t sh = some (t', sh')) :
    t'.id = t.id ∧ Move r me t.id sh t.phase t'.phase sh' := by
  obtain ⟨id, phase⟩ := t
  cases phase with
  | looking =>
    simp only [step] at h
    split at h
    · rename_i g hkept
      obtain ⟨rfl, rfl⟩ := Prod.mk.inj (Option.some.inj h)
      exact ⟨rfl, .found g hkept⟩
    · rename_i hkept
      obtain ⟨rfl, rfl⟩ := Prod.mk.inj (Option.some.inj h)
      exact ⟨rfl, .missed hkept⟩
  | choosing =>
    simp only [step] at h
    split at h
    · rename_i hnone
      obtain ⟨rfl, rfl⟩ := Prod.mk.inj (Option.some.inj h)
      exact ⟨rfl, .unsupported hnone⟩
    · rename_i l hl
      obtain ⟨rfl, rfl⟩ := Prod.mk.inj (Option.some.inj h)
      exact ⟨rfl, .chosen l hl⟩
  | wantingRegistry l =>
    simp only [step] at h
    split at h
    · cases h
    · rename_i hfree
      obtain ⟨rfl, rfl⟩ := Prod.mk.inj (Option.some.inj h)
      exact ⟨rfl, .entered l (Option.not_isSome_iff_eq_none.mp hfree)⟩
  | makingLock l =>
    obtain ⟨rfl, rfl⟩ := Prod.mk.inj (Option.some.inj h)
    exact ⟨rfl, .made l⟩
  | wantingLock l lock =>
    simp only [step] at h
    split at h
    · cases h
    · rename_i hfree
      obtain ⟨rfl, rfl⟩ := Prod.mk.inj (Option.some.inj h)
      exact ⟨rfl, .acquired l lock (Option.not_isSome_iff_eq_none.mp hfree)⟩
  | lookingAgain l lock =>
    simp only [step] at h
    split at h
    · rename_i g hkept
      obtain ⟨rfl, rfl⟩ := Prod.mk.inj (Option.some.inj h)
      exact ⟨rfl, .foundAgain l lock g hkept⟩
    · rename_i hkept
      obtain ⟨rfl, rfl⟩ := Prod.mk.inj (Option.some.inj h)
      exact ⟨rfl, .missedAgain l lock hkept⟩
  | loading l lock =>
    simp only [step] at h
    split at h
    · rename_i g s hload
      obtain ⟨rfl, rfl⟩ := Prod.mk.inj (Option.some.inj h)
      have hmove : Move r me id sh _ _ _ := .loaded l lock g (congrArg Prod.fst hload)
      rw [hload] at hmove
      exact ⟨rfl, hmove⟩
    · rename_i e s hload
      obtain ⟨rfl, rfl⟩ := Prod.mk.inj (Option.some.inj h)
      have hmove : Move r me id sh _ _ _ := .failed l lock e (congrArg Prod.fst hload)
      rw [hload] at hmove
      exact ⟨rfl, hmove⟩
  | wantingStore g lock =>
    simp only [step] at h
    split at h
    · cases h
    · rename_i hfree
      obtain ⟨rfl, rfl⟩ := Prod.mk.inj (Option.some.inj h)
      exact ⟨rfl, .enteredAgain g lock (Option.not_isSome_iff_eq_none.mp hfree)⟩
  | storing g lock =>
    obtain ⟨rfl, rfl⟩ := Prod.mk.inj (Option.some.inj h)
    exact ⟨rfl, .stored g lock⟩
  | releasing answer lock =>
    obtain ⟨rfl, rfl⟩ := Prod.mk.inj (Option.some.inj h)
    exact ⟨rfl, .released answer lock⟩
  | finished answer => cases h

namespace Phase

@[simp] def lock? : Phase → Option Nat
  | .wantingLock _ lock => some lock
  | .lookingAgain _ lock => some lock
  | .loading _ lock => some lock
  | .wantingStore _ lock => some lock
  | .storing _ lock => some lock
  | .releasing _ lock => some lock
  | _ => none

@[simp] def held? : Phase → Option Nat
  | .wantingLock _ _ => none
  | phase => phase.lock?

@[simp] def language? : Phase → Option Language
  | .wantingRegistry l => some l
  | .makingLock l => some l
  | .wantingLock l _ => some l
  | .lookingAgain l _ => some l
  | .loading l _ => some l
  | _ => none

@[simp] def unsaved? : Phase → Option LoadedGrammar
  | .wantingStore g _ => some g
  | .storing g _ => some g
  | _ => none

@[simp] def isLoading : Phase → Bool
  | .loading _ _ => true
  | _ => false

@[simp] def answer? : Phase → Option Answer
  | .releasing answer _ => some answer
  | .finished answer => some answer
  | _ => none

theorem lock?_of_held? {phase : Phase} {lock : Nat} (h : phase.held? = some lock) :
    phase.lock? = some lock := by
  cases phase with
  | wantingLock l k => cases h
  | _ => exact h

end Phase

structure Thread.Sound (r : Registry) (sh : Shared) (me : Nat) (t : Thread) : Prop where
  language : ∀ l, t.phase.language? = some l → r.grammarLanguage? t.id = some l
  supported : ∀ g, t.phase.unsaved? = some g → r.grammarLanguage? t.id ≠ none
  lock : ∀ lock, t.phase.lock? = some lock → sh.locks.lookup t.id = some lock
  holder : ∀ lock, t.phase.held? = some lock → sh.holders.lookup lock = some me
  fresh : t.phase.isLoading ∨ t.phase.unsaved?.isSome → sh.session.ledger.kept t.id = none
  answered : ∀ g, t.phase.answer? = some (.ok g) → sh.session.ledger.kept t.id = some g

theorem Thread.Sound.eq_of_held {sh : Shared} {i j : Nat} {t u : Thread} (ht : t.Sound r sh i)
    (hu : u.Sound r sh j) (hid : t.id = u.id) (hheldT : t.phase.held?.isSome)
    (hheldU : u.phase.held?.isSome) : i = j := by
  obtain ⟨lock, hlock⟩ := Option.isSome_iff_exists.mp hheldT
  obtain ⟨lock', hlock'⟩ := Option.isSome_iff_exists.mp hheldU
  have hsame := ht.lock lock (Phase.lock?_of_held? hlock)
  rw [hid, hu.lock lock' (Phase.lock?_of_held? hlock')] at hsame
  have hholder := ht.holder lock hlock
  rw [← Option.some.inj hsame, hu.holder lock' hlock'] at hholder
  exact (Option.some.inj hholder).symm

theorem lookup_filter_ne {α : Type} (entries : List (Nat × α)) {lock other : Nat}
    (h : other ≠ lock) : (entries.filter (·.1 != lock)).lookup other = entries.lookup other := by
  induction entries with
  | nil => rfl
  | cons entry rest ih =>
    obtain ⟨key, value⟩ := entry
    by_cases hkey : key = lock
    · subst hkey
      simp [ih, lookup_cons_of_ne h]
    · by_cases hother : other = key
      · subst hother
        simp [hkey]
      · simp [hkey, ih, lookup_cons_of_ne hother]

@[simp] theorem lockOf_holders (sh : Shared) (id : String) :
    (sh.lockOf id).2.holders = sh.holders := by
  unfold Shared.lockOf
  split <;> rfl

@[simp] theorem lockOf_session (sh : Shared) (id : String) :
    (sh.lockOf id).2.session = sh.session := by
  unfold Shared.lockOf
  split <;> rfl

theorem lockOf_self (sh : Shared) (id : String) :
    (sh.lockOf id).2.locks.lookup id = some (sh.lockOf id).1 := by
  unfold Shared.lockOf
  split
  · assumption
  · rename_i hnone
    simp [List.lookup_append, hnone]

theorem lockOf_keeps (sh : Shared) (id : String) {other : String} {lock : Nat}
    (h : sh.locks.lookup other = some lock) : (sh.lockOf id).2.locks.lookup other = some lock := by
  unfold Shared.lockOf
  split
  · exact h
  · simp [List.lookup_append, h]

/-- What thread `me` guarantees to the others in one step for `id`: a lock stays with its id and
with its holder, and the grammars kept change only when it stores its own. -/
theorem Move.guarantee {me : Nat} {id : String} {sh sh' : Shared} {phase phase' : Phase}
    (h : Move r me id sh phase phase' sh')
    (hholder : ∀ lock, phase.held? = some lock → sh.holders.lookup lock = some me) :
    (∀ other lock, sh.locks.lookup other = some lock → sh'.locks.lookup other = some lock) ∧
      (∀ lock j, j ≠ me → sh.holders.lookup lock = some j → sh'.holders.lookup lock = some j) ∧
      (sh'.session.ledger.kept = sh.session.ledger.kept ∨
        ∃ g lock, phase = .storing g lock ∧ sh'.session = Registry.keep id g sh.session) := by
  cases h with
  | found g h => exact ⟨fun _ _ h => h, fun _ _ _ h => h, .inl rfl⟩
  | missed h => exact ⟨fun _ _ h => h, fun _ _ _ h => h, .inl rfl⟩
  | unsupported h => exact ⟨fun _ _ h => h, fun _ _ _ h => h, .inl rfl⟩
  | chosen l h => exact ⟨fun _ _ h => h, fun _ _ _ h => h, .inl rfl⟩
  | entered l h => exact ⟨fun _ _ h => h, fun _ _ _ h => h, .inl rfl⟩
  | made l =>
    exact ⟨fun _ _ h => lockOf_keeps sh id h, fun _ _ _ h => by simpa using h, .inl (by simp)⟩
  | acquired l lock h =>
    refine ⟨fun _ _ h => h, fun other j _ hother => ?_, .inl rfl⟩
    have hne : other ≠ lock := by
      rintro rfl
      rw [h] at hother
      cases hother
    rwa [lookup_cons_of_ne hne]
  | foundAgain l lock g h => exact ⟨fun _ _ h => h, fun _ _ _ h => h, .inl rfl⟩
  | missedAgain l lock h => exact ⟨fun _ _ h => h, fun _ _ _ h => h, .inl rfl⟩
  | loaded l lock g h =>
    exact ⟨fun _ _ h => h, fun _ _ _ h => h, .inl (r.kept_loadAnew l sh.session)⟩
  | failed l lock e h =>
    exact ⟨fun _ _ h => h, fun _ _ _ h => h, .inl (r.kept_loadAnew l sh.session)⟩
  | enteredAgain g lock h => exact ⟨fun _ _ h => h, fun _ _ _ h => h, .inl rfl⟩
  | stored g lock => exact ⟨fun _ _ h => h, fun _ _ _ h => h, .inr ⟨g, lock, rfl, rfl⟩⟩
  | released answer lock =>
    refine ⟨fun _ _ h => h, fun other j hj hother => ?_, .inl rfl⟩
    have hne : other ≠ lock := by
      rintro rfl
      rw [hholder other rfl] at hother
      exact hj (Option.some.inj hother).symm
    rw [← hother]
    exact lookup_filter_ne sh.holders hne

theorem Move.sound {me : Nat} {id : String} {sh sh' : Shared} {phase phase' : Phase}
    (h : Move r me id sh phase phase' sh') (hs : Thread.Sound r sh me ⟨id, phase⟩) :
    Thread.Sound r sh' me ⟨id, phase'⟩ := by
  obtain ⟨language, supported, lock, holder, fresh, answered⟩ := hs
  cases h with
  | found g h => exact ⟨by simp, by simp, by simp, by simp, by simp, by simpa using h⟩
  | missed h => exact ⟨by simp, by simp, by simp, by simp, by simp, by simp⟩
  | unsupported h => exact ⟨by simp, by simp, by simp, by simp, by simp, by simp⟩
  | chosen l h => exact ⟨by simpa using h, by simp, by simp, by simp, by simp, by simp⟩
  | entered l h => exact ⟨language, by simp, by simp, by simp, by simp, by simp⟩
  | made l => exact ⟨language, by simp, by simpa using lockOf_self sh id, by simp, by simp, by simp⟩
  | acquired l k h => exact ⟨language, by simp, lock, by simp, by simp, by simp⟩
  | foundAgain l k g h => exact ⟨by simp, by simp, lock, holder, by simp, by simpa using h⟩
  | missedAgain l k h => exact ⟨language, by simp, lock, holder, fun _ => h, by simp⟩
  | loaded l k g h =>
    have hlanguage : r.grammarLanguage? id = some l := language l rfl
    refine ⟨by simp, by simp [hlanguage], lock, holder, fun _ => ?_, by simp⟩
    rw [r.kept_loadAnew]
    exact fresh (.inl rfl)
  | failed l k e h => exact ⟨by simp, by simp, lock, holder, by simp, by simp⟩
  | enteredAgain g k h => exact ⟨by simp, supported, lock, holder, fresh, by simp⟩
  | stored g k =>
    have hkeep := Registry.ledger_keep id g sh.session (fresh (.inr rfl))
    exact ⟨by simp, by simp, lock, holder, by simp, by simp [hkeep]⟩
  | released answer k => exact ⟨by simp, by simp, by simp, by simp, by simp, answered⟩

theorem Thread.Sound.of_other {i j : Nat} {t u : Thread} {sh sh' : Shared} {phase : Phase}
    (hu : u.Sound r sh j) (ht : t.Sound r sh i) (hmove : Move r i t.id sh t.phase phase sh')
    (hne : j ≠ i) : u.Sound r sh' j := by
  obtain ⟨hlocks, hholders, hkept⟩ := hmove.guarantee ht.holder
  refine ⟨hu.language, hu.supported, fun k hk => hlocks _ _ (hu.lock k hk),
    fun k hk => hholders _ _ hne (hu.holder k hk),
    ?_, ?_⟩
  · intro hloading
    rcases hkept with hkept | ⟨g, k, hphase, hstored⟩
    · rw [hkept]
      exact hu.fresh hloading
    · have hheld : u.phase.held?.isSome := by
        cases hu' : u.phase <;> simp [hu'] at hloading ⊢
      have hid : u.id ≠ t.id := fun hid => hne (hu.eq_of_held ht hid hheld (by simp [hphase]))
      rw [hstored, Registry.ledger_keep t.id g sh.session (ht.fresh (by simp [hphase]))]
      simpa [hid] using hu.fresh hloading
  · intro g hanswer
    have hbefore := hu.answered g hanswer
    rcases hkept with hkept | ⟨g', k, hphase, hstored⟩
    · rwa [hkept]
    · have habsent := ht.fresh (by simp [hphase])
      have hid : u.id ≠ t.id := by
        intro hid
        rw [hid, habsent] at hbefore
        cases hbefore
      rw [hstored, Registry.ledger_keep t.id g' sh.session habsent]
      simpa [hid] using hbefore

namespace Scene

def Sound (r : Registry) (c : Scene) : Prop :=
  ∀ (me : Nat) (t : Thread), c.threads[me]? = some t → t.Sound r c.shared me

theorem advance_cases (r : Registry) (c : Scene) (me : Nat) :
    c.advance r me = c ∨ ∃ t t' sh, c.threads[me]? = some t ∧ t'.id = t.id ∧
      Move r me t.id c.shared t.phase t'.phase sh ∧ c.advance r me = ⟨c.threads.set me t', sh⟩ := by
  unfold advance
  split
  · exact .inl rfl
  · rename_i t ht
    split
    · exact .inl rfl
    · rename_i t' sh hstep
      obtain ⟨hid, hmove⟩ := Move.of_step hstep
      exact .inr ⟨t, t', sh, ht, hid, hmove, rfl⟩

theorem run_keeps {P : Scene → Prop} (hadvance : ∀ c me, P c → P (c.advance r me)) {c : Scene}
    (hc : P c) (schedule : List Nat) : P (c.run r schedule) := by
  unfold run
  induction schedule generalizing c with
  | nil => exact hc
  | cons me rest ih => exact ih (hadvance c me hc)

theorem sound_start (r : Registry) (ids : List String) (locks : List (String × Nat)) (s : Session) :
    (start ids locks s).Sound r := by
  intro me t ht
  obtain ⟨id, -, rfl⟩ := List.mem_map.mp (List.mem_of_getElem? ht)
  exact ⟨by simp, by simp, by simp, by simp, by simp, by simp⟩

theorem Sound.advance {c : Scene} (hc : c.Sound r) (me : Nat) : (c.advance r me).Sound r := by
  rcases advance_cases r c me with heq | ⟨t, t', sh, ht, hid, hmove, heq⟩
  · rwa [heq]
  · rw [heq]
    intro j u hu
    by_cases hj : me = j
    · subst hj
      have hsame : u = t' := by
        have hlt := (List.getElem?_eq_some_iff.mp ht).1
        rw [List.getElem?_set_self hlt] at hu
        exact (Option.some.inj hu).symm
      subst hsame
      have hown := hmove.sound (hc me t ht)
      rw [← hid] at hown
      exact hown
    · rw [List.getElem?_set_ne hj] at hu
      exact (hc j u hu).of_other (hc me t ht) hmove (Ne.symm hj)

theorem Sound.run {c : Scene} (hc : c.Sound r) (schedule : List Nat) : (c.run r schedule).Sound r :=
  run_keeps (fun _ me h => h.advance me) hc schedule

theorem kept_advance {c : Scene} (hc : c.Sound r) (me : Nat) {id : String} {g : LoadedGrammar}
    (hkept : c.shared.session.ledger.kept id = some g) :
    (c.advance r me).shared.session.ledger.kept id = some g := by
  rcases advance_cases r c me with heq | ⟨t, t', sh, ht, -, hmove, heq⟩
  · rwa [heq]
  · rw [heq]
    rcases (hmove.guarantee (hc me t ht).holder).2.2 with hsame | ⟨g', lock, hphase, hstored⟩
    · exact (congrFun hsame id).trans hkept
    · have habsent := (hc me t ht).fresh (by simp [hphase])
      have hid : id ≠ t.id := by
        rintro rfl
        rw [habsent] at hkept
        cases hkept
      simpa [hstored, Registry.ledger_keep t.id g' _ habsent, hid] using hkept

theorem kept_run {c : Scene} (hc : c.Sound r) (schedule : List Nat) {id : String}
    {g : LoadedGrammar} (hkept : c.shared.session.ledger.kept id = some g) :
    (c.run r schedule).shared.session.ledger.kept id = some g :=
  (run_keeps (P := fun c => c.Sound r ∧ c.shared.session.ledger.kept id = some g)
    (fun _ me h => ⟨h.1.advance me, kept_advance h.1 me h.2⟩) ⟨hc, hkept⟩ schedule).2

end Scene

end SourceOutline.SingleFlight
