import Mathlib.Data.List.Basic
import SourceOutline.Proofs.Grammar.Exclusion
import SourceOutline.Proofs.Grammar.InTurn

/-! Loading from several threads at once is like loading one after another. Each call takes effect
in one step: when it finds its grammar, when it learns that there is none, or when it calls the
loader. In the order of these steps the calls, made one after another, get the same answers and
leave the same ledger. -/
namespace SourceOutline.SingleFlight

variable {r : Registry} {origin : Ledger} {calls : List String} {c : Scene}

/-- The answer of a call that has taken effect, with its id. A thread that found nothing for an id
without a grammar has its answer, though it still has to learn it. -/
def Thread.settled? (r : Registry) (t : Thread) : Option (String × Answer) :=
  match t.phase with
  | .choosing =>
    if (r.grammarLanguage? t.id).isNone then some (t.id, .error (.unsupportedLanguage t.id))
      else none
  | .wantingStore g _ => some (t.id, .ok g)
  | .storing g _ => some (t.id, .ok g)
  | .releasing answer _ => some (t.id, answer)
  | .finished answer => some (t.id, answer)
  | _ => none

namespace Scene

def UnsavedByOther (c : Scene) (me : Nat) (id : String) (g : LoadedGrammar) : Prop :=
  ∃ (j : Nat) (u : Thread), j ≠ me ∧ c.threads[j]? = some u ∧ u.id = id ∧ u.phase.unsaved? = some g

def Unsaved (c : Scene) (id : String) (g : LoadedGrammar) : Prop :=
  ∃ (j : Nat) (u : Thread), c.threads[j]? = some u ∧ u.id = id ∧ u.phase.unsaved? = some g

theorem unsaved_iff {me : Nat} {t : Thread} (ht : c.threads[me]? = some t) (id : String)
    (g : LoadedGrammar) :
    c.Unsaved id g ↔ t.id = id ∧ t.phase.unsaved? = some g ∨ c.UnsavedByOther me id g := by
  constructor
  · rintro ⟨j, u, hu, hid, hunsaved⟩
    by_cases hj : j = me
    · subst hj
      rw [ht] at hu
      cases hu
      exact .inl ⟨hid, hunsaved⟩
    · exact .inr ⟨j, u, hj, hu, hid, hunsaved⟩
  · rintro (⟨hid, hunsaved⟩ | ⟨j, u, -, hu, hid, hunsaved⟩)
    · exact ⟨me, t, ht, hid, hunsaved⟩
    · exact ⟨j, u, hu, hid, hunsaved⟩

theorem unsaved_set_iff {me : Nat} {t : Thread} (ht : c.threads[me]? = some t) (t' : Thread)
    (sh : Shared) (id : String) (g : LoadedGrammar) : Unsaved ⟨c.threads.set me t', sh⟩ id g ↔
      t'.id = id ∧ t'.phase.unsaved? = some g ∨ c.UnsavedByOther me id g := by
  have hlt := (List.getElem?_eq_some_iff.mp ht).1
  have hset : (c.threads.set me t')[me]? = some t' := List.getElem?_set_self hlt
  rw [unsaved_iff (c := ⟨c.threads.set me t', sh⟩) hset]
  have hothers : UnsavedByOther ⟨c.threads.set me t', sh⟩ me id g ↔ c.UnsavedByOther me id g := by
    constructor
    · rintro ⟨j, u, hj, hu, hrest⟩
      rw [List.getElem?_set_ne (Ne.symm hj)] at hu
      exact ⟨j, u, hj, hu, hrest⟩
    · rintro ⟨j, u, hj, hu, hrest⟩
      refine ⟨j, u, hj, ?_, hrest⟩
      rwa [List.getElem?_set_ne (Ne.symm hj)]
  rw [hothers]

theorem Sound.not_unsavedByOther (hc : c.Sound r) {me : Nat} {t : Thread}
    (ht : c.threads[me]? = some t) (hheld : t.phase.held?.isSome) (g : LoadedGrammar) :
    ¬ c.UnsavedByOther me t.id g := by
  rintro ⟨j, u, hj, hu, hid, hunsaved⟩
  have hheldU : u.phase.held?.isSome := by
    cases hphase : u.phase <;> simp [hphase] at hunsaved ⊢
  exact hj ((hc j u hu).eq_of_held (hc me t ht) hid hheldU hheld)

/-- The calls, one after another, account for all that the threads have done: for the answers of the
calls that took effect, for the counts, and for the grammars that are kept or about to be. -/
structure Linearized (r : Registry) (origin : Ledger) (calls : List String) (c : Scene) : Prop where
  answers : (origin.loadInTurn r calls).1.Perm (c.threads.filterMap (Thread.settled? r))
  loads : (origin.loadInTurn r calls).2.loads = c.shared.session.ledger.loads
  compiles : (origin.loadInTurn r calls).2.compiles = c.shared.session.ledger.compiles
  kept : ∀ id g, (origin.loadInTurn r calls).2.kept id = some g ↔
    c.shared.session.ledger.kept id = some g ∨ c.Unsaved id g

theorem linearized_start (r : Registry) (ids : List String) (locks : List (String × Nat))
    (s : Session) :
    Linearized r s.ledger [] (start ids locks s) where
  answers := by
    have hnone : (start ids locks s).threads.filterMap (Thread.settled? r) = [] := by
      simp [start, Thread.settled?]
    rw [hnone]
    exact .nil
  loads := rfl
  compiles := rfl
  kept := by
    intro id g
    have hnone : ¬ (start ids locks s).Unsaved id g := by
      rintro ⟨j, u, hu, -, hunsaved⟩
      obtain ⟨id', -, rfl⟩ := List.mem_map.mp (List.mem_of_getElem? hu)
      cases hunsaved
    exact ⟨.inl, fun h => h.resolve_right hnone⟩

theorem filterMap_settled_set {me : Nat} {t : Thread} (ht : c.threads[me]? = some t) (t' : Thread) :
    ∃ before after, c.threads.filterMap (Thread.settled? r) =
      before ++ (t.settled? r).toList ++ after ∧
      (c.threads.set me t').filterMap (Thread.settled? r) =
        before ++ (t'.settled? r).toList ++ after := by
  have hlt := (List.getElem?_eq_some_iff.mp ht).1
  have hget := (List.getElem?_eq_some_iff.mp ht).2
  refine ⟨(c.threads.take me).filterMap (Thread.settled? r),
    (c.threads.drop (me + 1)).filterMap (Thread.settled? r),
    ?_, ?_⟩
  · have hsplit : c.threads = c.threads.take me ++ t :: c.threads.drop (me + 1) := by
      rw [← hget, ← List.drop_eq_getElem_cons hlt, List.take_append_drop]
    conv => lhs; rw [hsplit, List.filterMap_append, List.filterMap_cons]
    cases t.settled? r <;> simp
  · rw [List.set_eq_take_append_cons_drop, if_pos hlt, List.filterMap_append, List.filterMap_cons]
    cases t'.settled? r <;> simp

namespace Linearized

variable {me : Nat} {id : String} {phase phase' : Phase} {sh : Shared}

theorem quiet (hl : Linearized r origin calls c) (ht : c.threads[me]? = some ⟨id, phase⟩)
    (hsettled : Thread.settled? r ⟨id, phase'⟩ = Thread.settled? r ⟨id, phase⟩)
    (hunsaved : phase'.unsaved? = phase.unsaved?)
    (hledger : sh.session.ledger = c.shared.session.ledger) :
    Linearized r origin calls ⟨c.threads.set me ⟨id, phase'⟩, sh⟩ where
  answers := by
    obtain ⟨before, after, hold, hnew⟩ := filterMap_settled_set (r := r) ht ⟨id, phase'⟩
    rw [hnew, hsettled, ← hold]
    exact hl.answers
  loads := hl.loads.trans (congrArg Ledger.loads hledger).symm
  compiles := hl.compiles.trans (congrArg Ledger.compiles hledger).symm
  kept := by
    intro other g
    rw [hl.kept, unsaved_set_iff ht, unsaved_iff ht, hledger, hunsaved]

theorem effect (hl : Linearized r origin calls c) (ht : c.threads[me]? = some ⟨id, phase⟩)
    (hbefore : Thread.settled? r ⟨id, phase⟩ = none)
    (hafter : Thread.settled? r ⟨id, phase'⟩ =
      some (id, ((origin.loadInTurn r calls).2.load r id).1)) (hloads :
      ((origin.loadInTurn r calls).2.load r id).2.loads = sh.session.ledger.loads) (hcompiles :
      ((origin.loadInTurn r calls).2.load r id).2.compiles = sh.session.ledger.compiles) (hkept :
      ∀ other g, ((origin.loadInTurn r calls).2.load r id).2.kept other = some g ↔
      sh.session.ledger.kept other = some g ∨
      (id = other ∧ phase'.unsaved? = some g ∨ c.UnsavedByOther me other g)) :
    Linearized r origin (calls ++ [id]) ⟨c.threads.set me ⟨id, phase'⟩, sh⟩ where
  answers := by
    obtain ⟨before, after, hold, hnew⟩ := filterMap_settled_set (r := r) ht ⟨id, phase'⟩
    have hanswers := hl.answers
    rw [hold, hbefore] at hanswers
    rw [hnew, hafter, Ledger.loadInTurn_concat]
    refine (hanswers.append_right _).trans ?_
    simp only [Option.toList_none, Option.toList_some, List.append_nil, List.append_assoc]
    exact List.perm_append_comm.append_left before
  loads := by
    rw [Ledger.loadInTurn_concat]
    exact hloads
  compiles := by
    rw [Ledger.loadInTurn_concat]
    exact hcompiles
  kept := by
    intro other g
    rw [Ledger.loadInTurn_concat, unsaved_set_iff ht]
    exact hkept other g

theorem lookup_effect (hl : Linearized r origin calls c) (ht : c.threads[me]? = some ⟨id, phase⟩)
    {answer : Answer}
    (hload : (origin.loadInTurn r calls).2.load r id = (answer, (origin.loadInTurn r calls).2))
    (hbefore : Thread.settled? r ⟨id, phase⟩ = none)
    (hafter : Thread.settled? r ⟨id, phase'⟩ = some (id, answer)) (hunsaved : phase.unsaved? = none)
    (hunsaved' : phase'.unsaved? = none) :
    Linearized r origin (calls ++ [id]) ⟨c.threads.set me ⟨id, phase'⟩, c.shared⟩ := by
  apply hl.effect ht hbefore
  · rw [hload]
    exact hafter
  · rw [hload]
    exact hl.loads
  · rw [hload]
    exact hl.compiles
  · intro other g
    rw [hload, hl.kept, unsaved_iff ht, hunsaved, hunsaved']

theorem load_of_kept (hl : Linearized r origin calls c) {g : LoadedGrammar}
    (hkept : c.shared.session.ledger.kept id = some g) :
    (origin.loadInTurn r calls).2.load r id = (.ok g, (origin.loadInTurn r calls).2) :=
  Ledger.load_of_kept ((hl.kept id g).mpr (.inl hkept))

theorem load_unsupported (hl : Linearized r origin calls c) (hc : c.Sound r)
    (hkept : c.shared.session.ledger.kept id = none) (hlanguage : r.grammarLanguage? id = none) :
    (origin.loadInTurn r calls).2.load r id =
      (.error (.unsupportedLanguage id), (origin.loadInTurn r calls).2) := by
  have habsent : (origin.loadInTurn r calls).2.kept id = none := by
    rw [Option.eq_none_iff_forall_ne_some]
    intro g hg
    rcases (hl.kept id g).mp hg with hkept' | ⟨j, u, hu, rfl, hunsaved⟩
    · rw [hkept] at hkept'
      cases hkept'
    · exact (hc j u hu).supported g hunsaved hlanguage
  simp [Ledger.load, hlanguage, habsent]

theorem slot_of_loading (hl : Linearized r origin calls c) (hc : c.Sound r) {l : Language}
    {lock : Nat} (ht : c.threads[me]? = some ⟨id, .loading l lock⟩) :
    (origin.loadInTurn r calls).2.slot id l.name = c.shared.session.ledger.slot id l.name := by
  have hfresh := (hc me _ ht).fresh (.inl rfl)
  have habsent : (origin.loadInTurn r calls).2.kept id = none := by
    rw [Option.eq_none_iff_forall_ne_some]
    intro g hg
    rcases (hl.kept id g).mp hg with hkept | hunsaved
    · rw [hfresh] at hkept
      cases hkept
    · rcases (unsaved_iff ht id g).mp hunsaved with ⟨-, hnone⟩ | hother
      · cases hnone
      · exact hc.not_unsavedByOther ht rfl g hother
  unfold Ledger.slot
  rw [habsent, hfresh, hl.loads, hl.compiles]

theorem loaded (hl : Linearized r origin calls c) (hc : c.Sound r) {l : Language} {lock : Nat}
    {g : LoadedGrammar} (ht : c.threads[me]? = some ⟨id, .loading l lock⟩)
    (hload : (r.loadAnew l c.shared.session).1 = .ok g) :
    Linearized r origin (calls ++ [id])
      ⟨c.threads.set me ⟨id, .wantingStore g lock⟩,
        { c.shared with session := (r.loadAnew l c.shared.session).2 }⟩ := by
  have hfresh := (hc me _ ht).fresh (.inl rfl)
  have hslot := hl.slot_of_loading hc ht
  obtain ⟨hanswer, hledger⟩ := r.ledger_loadAnew l c.shared.session id
  rw [hload] at hanswer
  have hcall := Ledger.load_of_some ((hc me _ ht).language l rfl) (origin.loadInTurn r calls).2
  rw [hslot, Slot.load_of_ok hfresh hanswer.symm] at hcall
  apply hl.effect ht rfl
  · rw [hcall]
    rfl
  · rw [hcall]
    simp [hledger, Ledger.put, hl.loads]
  · rw [hcall]
    simp [hledger, Ledger.put, hl.compiles]
  · intro other g'
    rw [hcall, r.kept_loadAnew]
    by_cases hother : other = id
    · subst hother
      have hnone := hc.not_unsavedByOther ht rfl g'
      simp [Ledger.put, hfresh, hnone]
    · simp [Ledger.put, hother, Ne.symm hother, hl.kept, unsaved_iff ht]

theorem failed (hl : Linearized r origin calls c) (hc : c.Sound r) {l : Language} {lock : Nat}
    {e : OutlineError} (ht : c.threads[me]? = some ⟨id, .loading l lock⟩)
    (hload : (r.loadAnew l c.shared.session).1 = .error e) :
    Linearized r origin (calls ++ [id])
      ⟨c.threads.set me ⟨id, .releasing (.error e) lock⟩,
        { c.shared with session := (r.loadAnew l c.shared.session).2 }⟩ := by
  have hfresh := (hc me _ ht).fresh (.inl rfl)
  have hslot := hl.slot_of_loading hc ht
  obtain ⟨hanswer, hledger⟩ := r.ledger_loadAnew l c.shared.session id
  rw [hload] at hanswer
  have hcall := Ledger.load_of_some ((hc me _ ht).language l rfl) (origin.loadInTurn r calls).2
  rw [hslot, Slot.load_of_error hfresh hanswer.symm] at hcall
  apply hl.effect ht rfl
  · rw [hcall]
    rfl
  · rw [hcall]
    simp [hledger, Ledger.put, hl.loads]
  · rw [hcall]
    simp [hledger, Ledger.put, hl.compiles]
  · intro other g'
    have hsame :
        (Function.update (origin.loadInTurn r calls).2.kept id
      (c.shared.session.ledger.slot id l.name).kept) =
        (origin.loadInTurn r calls).2.kept := by
      rw [← hslot]
      exact Function.update_eq_self id _
    rw [hcall, r.kept_loadAnew]
    simp [Ledger.put, hsame, hl.kept, unsaved_iff ht]

theorem stored (hl : Linearized r origin calls c) (hc : c.Sound r) {g : LoadedGrammar} {lock : Nat}
    (ht : c.threads[me]? = some ⟨id, .storing g lock⟩)
    (hsession : sh.session = Registry.keep id g c.shared.session) :
    Linearized r origin calls ⟨c.threads.set me ⟨id, .releasing (.ok g) lock⟩, sh⟩ := by
  have hfresh := (hc me _ ht).fresh (.inr rfl)
  have hledger :=
    (congrArg Session.ledger hsession).trans (Registry.ledger_keep id g c.shared.session hfresh)
  refine ⟨?_, ?_, ?_, ?_⟩
  · obtain ⟨before, after, hold, hnew⟩ :=
      filterMap_settled_set (r := r) ht ⟨id, .releasing (.ok g) lock⟩
    have hanswers := hl.answers
    rw [hold] at hanswers
    rw [hnew]
    exact hanswers
  · rw [hl.loads, hledger]
  · rw [hl.compiles, hledger]
  · intro other g'
    rw [hl.kept, unsaved_set_iff ht, unsaved_iff ht, hledger]
    by_cases hother : other = id
    · subst hother
      have hnone := hc.not_unsavedByOther ht rfl g'
      simp [hfresh, hnone]
    · simp [hother, Ne.symm hother]

theorem step (hl : Linearized r origin calls c) (hc : c.Sound r)
    (ht : c.threads[me]? = some ⟨id, phase⟩) (hmove : Move r me id c.shared phase phase' sh) :
    ∃ calls', Linearized r origin calls' ⟨c.threads.set me ⟨id, phase'⟩, sh⟩ := by
  cases hmove with
  | found g h => exact ⟨_, hl.lookup_effect ht (hl.load_of_kept h) rfl rfl rfl rfl⟩
  | missed h =>
    cases hlanguage : r.grammarLanguage? id with
    | none =>
      exact ⟨_, hl.lookup_effect ht (hl.load_unsupported hc h hlanguage) rfl
        (by simp [Thread.settled?, hlanguage]) rfl rfl⟩
    | some l => exact ⟨_, hl.quiet ht (by simp [Thread.settled?, hlanguage]) rfl rfl⟩
  | unsupported h => exact ⟨_, hl.quiet ht (by simp [Thread.settled?, h]) rfl rfl⟩
  | chosen l h => exact ⟨_, hl.quiet ht (by simp [Thread.settled?, h]) rfl rfl⟩
  | entered l h => exact ⟨_, hl.quiet ht rfl rfl rfl⟩
  | made l => exact ⟨_, hl.quiet ht rfl rfl (by simp)⟩
  | acquired l lock h => exact ⟨_, hl.quiet ht rfl rfl rfl⟩
  | foundAgain l lock g h => exact ⟨_, hl.lookup_effect ht (hl.load_of_kept h) rfl rfl rfl rfl⟩
  | missedAgain l lock h => exact ⟨_, hl.quiet ht rfl rfl rfl⟩
  | loaded l lock g h => exact ⟨_, hl.loaded hc ht h⟩
  | failed l lock e h => exact ⟨_, hl.failed hc ht h⟩
  | enteredAgain g lock h => exact ⟨_, hl.quiet ht rfl rfl rfl⟩
  | stored g lock => exact ⟨_, hl.stored hc ht rfl⟩
  | released answer lock => exact ⟨_, hl.quiet ht rfl rfl rfl⟩

end Linearized

theorem linearized_run (hc : c.Sound r) (hl : Linearized r origin calls c) (schedule : List Nat) :
    ∃ calls', Linearized r origin calls' (c.run r schedule) := by
  refine (run_keeps (P := fun c => c.Sound r ∧ ∃ calls', Linearized r origin calls' c) ?_
    ⟨hc, calls, hl⟩ schedule).2
  rintro c me ⟨hc, calls, hl⟩
  refine ⟨hc.advance me, ?_⟩
  rcases advance_cases r c me with heq | ⟨t, t', sh, ht, hid, hmove, heq⟩
  · rw [heq]
    exact ⟨calls, hl⟩
  · obtain ⟨id, phase⟩ := t
    obtain ⟨id', phase'⟩ := t'
    cases hid
    rw [heq]
    exact hl.step hc ht hmove

theorem ids_run (c : Scene) (schedule : List Nat) :
    (c.run r schedule).threads.map Thread.id = c.threads.map Thread.id := by
  refine run_keeps (P := fun c' => c'.threads.map Thread.id = c.threads.map Thread.id) ?_ rfl
    schedule
  intro c' me hids
  rcases advance_cases r c' me with heq | ⟨t, t', sh, ht, hid, -, heq⟩
  · rwa [heq]
  · obtain ⟨hlt, hget⟩ := List.getElem?_eq_some_iff.mp ht
    have hlt' : me < (c'.threads.map Thread.id).length := by simpa using hlt
    have hsame : (c'.threads.map Thread.id)[me] = t'.id := by simp [hget, hid]
    rw [heq, ← hids, List.map_set, ← hsame]
    exact List.set_getElem_self hlt'

/-- The answers of the threads that have finished, each with its id. -/
def results (c : Scene) : List (String × Answer) :=
  c.threads.filterMap fun t => t.answer?.map (t.id, ·)

def Finished (c : Scene) : Prop := ∀ t ∈ c.threads, t.answer?.isSome

theorem settled_of_finished (hfinished : c.Finished) :
    c.threads.filterMap (Thread.settled? r) = c.results := by
  apply List.filterMap_congr
  intro t ht
  obtain ⟨id, phase⟩ := t
  cases phase with
  | finished answer => rfl
  | _ => cases hfinished _ ht

theorem Linearized.ledger_of_finished (hl : Linearized r origin calls c) (hfinished : c.Finished) :
    (origin.loadInTurn r calls).2 = c.shared.session.ledger := by
  apply Ledger.ext
  · funext id
    apply Option.ext
    intro g
    have hnone : ¬ c.Unsaved id g := by
      rintro ⟨j, ⟨id', phase⟩, hu, -, hunsaved⟩
      have hanswer := hfinished _ (List.mem_of_getElem? hu)
      cases phase with
      | finished answer => cases hunsaved
      | _ => cases hanswer
    rw [hl.kept]
    exact ⟨fun h => h.resolve_right hnone, .inl⟩
  · exact hl.loads
  · exact hl.compiles

theorem map_fst_results (hfinished : c.Finished) :
    c.results.map Prod.fst = c.threads.map Thread.id := by
  rw [results, List.map_filterMap, ← List.filterMap_eq_map]
  apply List.filterMap_congr
  intro t ht
  obtain ⟨answer, hanswer⟩ := Option.isSome_iff_exists.mp (hfinished t ht)
  simp [hanswer]

theorem finished_eq_inTurn {ids : List String} {locks : List (String × Nat)} {s : Session}
    {schedule : List Nat} (apart : ∀ a ∈ ids, ∀ b ∈ ids, a ≠ b → r.Apart a b)
    (hfinished : ((start ids locks s).run r schedule).Finished) {order : List String}
    (horder : order.Perm ids) :
    ((start ids locks s).run r schedule).results.Perm (r.loadInTurn order s).1 ∧
      ((start ids locks s).run r schedule).shared.session.ledger =
        (r.loadInTurn order s).2.ledger := by
  obtain ⟨calls, hl⟩ :=
    linearized_run (sound_start r ids locks s) (linearized_start r ids locks s) schedule
  have hids : calls.Perm ids := by
    have hmap := hl.answers.map Prod.fst
    rw [Ledger.map_fst_loadInTurn, settled_of_finished hfinished,
      map_fst_results hfinished, ids_run] at hmap
    simpa [start, Function.comp_def] using hmap
  have hcalls : ∀ a ∈ calls, ∀ b ∈ calls, a ≠ b → r.Apart a b :=
    fun a ha b hb => apart a (hids.mem_iff.mp ha) b (hids.mem_iff.mp hb)
  obtain ⟨hanswers, hledger⟩ := Ledger.loadInTurn_perm (hids.trans horder.symm) hcalls s.ledger
  obtain ⟨hseq, hseqLedger⟩ := r.ledger_loadInTurn order s
  constructor
  · rw [hseq, ← settled_of_finished (r := r) hfinished]
    exact hl.answers.symm.trans hanswers
  · rw [hseqLedger, ← hledger]
    exact (hl.ledger_of_finished hfinished).symm

end Scene

/-- Threads that load at once, in any order of their steps: never do two of them load for one id; a
grammar is stored where none is kept and then stays; who gets a grammar gets the one that is kept;
and when all have finished, answers, counts and grammars are those of the same calls one after
another. -/
theorem concurrent_loads_linearizable (r : Registry) (ids : List String)
    (locks : List (String × Nat)) (s : Session)
    (distinct : ∀ a ∈ ids, ∀ b ∈ ids, ∀ l m, r.grammarLanguage? a = some l →
      r.grammarLanguage? b = some m → l.name = m.name → a = b)
    (schedule : List Nat) :
    let c := (Scene.start ids locks s).run r schedule
    (∀ (i j : Nat) (t u : Thread), c.threads[i]? = some t → c.threads[j]? = some u →
      t.phase.isLoading → u.phase.isLoading → t.id = u.id → i = j) ∧
    (∀ t ∈ c.threads, ∀ g lock, t.phase = .storing g lock →
      c.shared.session.loaded.lookup t.id = none) ∧
    (∀ id g, c.shared.session.loaded.lookup id = some g →
      ∀ more, (c.run r more).shared.session.loaded.lookup id = some g) ∧
    (∀ t ∈ c.threads, ∀ g, t.answer? = some (.ok g) →
      c.shared.session.loaded.lookup t.id = some g) ∧
    (c.Finished → ∀ order : List String, order.Perm ids →
      c.results.Perm (r.loadInTurn order s).1 ∧
      (∀ name, c.shared.session.loads.count name = (r.loadInTurn order s).2.loads.count name) ∧
      (∀ name,
        c.shared.session.compiles.count name = (r.loadInTurn order s).2.compiles.count name) ∧
      ∀ id, c.shared.session.loaded.lookup id = (r.loadInTurn order s).2.loaded.lookup id) := by
  intro c
  have hc : c.Sound r := (Scene.sound_start r ids locks s).run schedule
  have apart : ∀ a ∈ ids, ∀ b ∈ ids, a ≠ b → r.Apart a b :=
    fun a ha b hb hne => ⟨hne, fun l m hl hm hname => hne (distinct a ha b hb l m hl hm hname)⟩
  refine ⟨?_, ?_, ?_, ?_, ?_⟩
  · intro i j t u ht hu hloadingT hloadingU hid
    apply (hc i t ht).eq_of_held (hc j u hu) hid
    · cases hphase : t.phase <;> simp [hphase] at hloadingT ⊢
    · cases hphase : u.phase <;> simp [hphase] at hloadingU ⊢
  · intro t ht g lock hphase
    obtain ⟨i, hi⟩ := List.getElem?_of_mem ht
    exact (hc i t hi).fresh (by simp [hphase])
  · intro id g hkept more
    exact Scene.kept_run hc more hkept
  · intro t ht g hanswer
    obtain ⟨i, hi⟩ := List.getElem?_of_mem ht
    apply (hc i t hi).answered g
    obtain ⟨id, phase⟩ := t
    cases phase with
    | finished answer => exact hanswer
    | _ => cases hanswer
  · intro hfinished order horder
    obtain ⟨hresults, hledger⟩ := Scene.finished_eq_inTurn apart hfinished horder
    exact ⟨hresults, congrFun (congrArg Ledger.loads hledger),
      congrFun (congrArg Ledger.compiles hledger),
      congrFun (congrArg Ledger.kept hledger)⟩

/-- Two languages, and a loader that fails at the first call for one of them. -/
def flaky : Registry where
  languages :=
    [("go", .withGrammar "go" "tree-sitter-go" "" []),
      ("lua", .withGrammar "lua" "tree-sitter-lua" "" [])]
  load := fun l n => if l.name == "go" && n == 0 then .error ⟨"ImportError", "no module"⟩
    else .ok ()
  compile := fun _ _ => .ok []

theorem flaky_distinct : ∀ a ∈ ["go", "lua", "go", "go"], ∀ b ∈ ["go", "lua", "go", "go"], ∀ l m,
    flaky.grammarLanguage? a = some l → flaky.grammarLanguage? b = some m →
      l.name = m.name → a = b := by
  have hnames : ∀ a ∈ ["go", "lua", "go", "go"], (flaky.grammarLanguage? a).map Language.name =
      some a := by decide
  intro a ha b hb l m hl hm hname
  have hla := hnames a ha
  have hmb := hnames b hb
  rw [hl] at hla
  rw [hm] at hmb
  exact (Option.some.inj hla).symm.trans (hname.trans (Option.some.inj hmb))

/-- Four threads by turns: of the three for one id the first fails, the second loads and the third
finds its grammar. -/
theorem concurrent_loads_linearizable_flaky :
    let c := (Scene.start ["go", "lua", "go", "go"] [] .start).run flaky (rounds 40 4)
    c.Finished ∧ c.results.Perm (flaky.loadInTurn ["go", "go", "go", "lua"] .start).1 := by
  intro c
  have hfinished : c.Finished := by
    unfold Scene.Finished
    decide +kernel
  have hall := concurrent_loads_linearizable flaky ["go", "lua", "go", "go"] [] .start
    flaky_distinct (rounds 40 4)
  exact ⟨hfinished, (hall.2.2.2.2 hfinished ["go", "go", "go", "lua"] (by decide)).1⟩

end SourceOutline.SingleFlight
