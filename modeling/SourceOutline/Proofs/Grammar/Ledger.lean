import Mathlib.Logic.Function.Basic
import SourceOutline.Grammar.Registry

/-! What loading a grammar reads and changes. Of a session only the ledger matters: which grammar is
kept under each id, and how often loader and compiler were called for each language. A call for one
id touches one slot of the ledger, so calls for ids with different languages do not notice each
other. -/
namespace SourceOutline

theorem lookup_cons_of_ne {α β : Type} [BEq α] [LawfulBEq α] {k key : α} (h : k ≠ key) (value : β)
    (rest : List (α × β)) : ((key, value) :: rest).lookup k = rest.lookup k := by
  simp [List.lookup_cons, beq_false_of_ne h]

theorem mem_of_lookup {α β : Type} [BEq α] [LawfulBEq α] {k : α} {value : β} {l : List (α × β)}
    (h : l.lookup k = some value) : (k, value) ∈ l := by
  obtain ⟨before, after, rfl, -⟩ := List.lookup_eq_some_iff.mp h
  simp

@[ext] structure Ledger where
  kept : String → Option LoadedGrammar
  loads : String → Nat
  compiles : String → Nat

def Session.ledger (s : Session) : Ledger :=
  ⟨fun id => s.loaded.lookup id, s.loads.count, s.compiles.count⟩

namespace Tally

@[simp] theorem count_cons (k : String) (n : Nat) (t : Tally) (name : String) :
    count ((k, n) :: t) name = if name = k then n else count t name := by
  unfold count
  by_cases h : name = k
  · simp [h]
  · rw [lookup_cons_of_ne h, if_neg h]

theorem count_bump (t : Tally) (name : String) :
    (bump name t).count = Function.update t.count name (t.count name + 1) := by
  funext k
  induction t with
  | nil =>
    by_cases h : k = name
    · subst h
      simp [bump, count]
    · simp [bump, count, lookup_cons_of_ne h, h]
  | cons entry rest ih =>
    obtain ⟨key, n⟩ := entry
    by_cases hkey : key = name
    · subst hkey
      by_cases hk : k = key
      · subst hk
        simp [bump]
      · simp [bump, hk]
    · rw [bump, if_neg (by simpa using hkey), count_cons, ih]
      by_cases hk : k = name
      · subst hk
        simp [Ne.symm hkey]
      · simp [hk]

end Tally

/-- The part of a ledger that belongs to one id and its language. -/
structure Slot where
  kept : Option LoadedGrammar
  loads : Nat
  compiles : Nat

namespace Slot

def attempt (r : Registry) (l : Language) (slot : Slot) : Answer × Slot :=
  match r.load l slot.loads with
  | .error f => (.error (.grammarLoad l.name f.describe), { slot with loads := slot.loads + 1 })
  | .ok () =>
    let slot' : Slot := ⟨slot.kept, slot.loads + 1, slot.compiles + 1⟩
    match r.compile l slot.compiles with
    | .error f => (.error (.query l.name f.text), slot')
    | .ok q => (.ok ⟨l.name, l.query, q⟩, slot')

/-- A grammar that is kept is the answer; otherwise a success is kept. -/
def load (r : Registry) (l : Language) (slot : Slot) : Answer × Slot :=
  match slot.kept with
  | some g => (.ok g, slot)
  | none =>
    match slot.attempt r l with
    | (.ok g, slot) => (.ok g, { slot with kept := some g })
    | (.error e, slot) => (.error e, slot)

@[simp] theorem kept_attempt (r : Registry) (l : Language) (slot : Slot) :
    (slot.attempt r l).2.kept = slot.kept := by
  unfold attempt
  split
  · rfl
  · dsimp only
    split <;> rfl

theorem load_of_ok {r : Registry} {l : Language} {slot : Slot} {g : LoadedGrammar}
    (hkept : slot.kept = none) (h : (slot.attempt r l).1 = .ok g) :
    slot.load r l = (.ok g, { (slot.attempt r l).2 with kept := some g }) := by
  simp only [load, hkept]
  generalize slot.attempt r l = tried at h ⊢
  obtain ⟨answer, slot'⟩ := tried
  subst h
  rfl

theorem load_of_error {r : Registry} {l : Language} {slot : Slot} {e : OutlineError}
    (hkept : slot.kept = none) (h : (slot.attempt r l).1 = .error e) :
    slot.load r l = (.error e, (slot.attempt r l).2) := by
  simp only [load, hkept]
  generalize slot.attempt r l = tried at h ⊢
  obtain ⟨answer, slot'⟩ := tried
  subst h
  rfl

end Slot

namespace Ledger

def slot (ledger : Ledger) (id name : String) : Slot :=
  ⟨ledger.kept id, ledger.loads name, ledger.compiles name⟩

def put (ledger : Ledger) (id name : String) (slot : Slot) : Ledger :=
  ⟨Function.update ledger.kept id slot.kept, Function.update ledger.loads name slot.loads,
    Function.update ledger.compiles name slot.compiles⟩

@[simp] theorem put_slot (ledger : Ledger) (id name : String) :
    ledger.put id name (ledger.slot id name) = ledger := by
  simp [put, slot]

theorem slot_put_of_ne (ledger : Ledger) {a b m n : String} (σ : Slot) (hid : b ≠ a)
    (hname : n ≠ m) : (ledger.put a m σ).slot b n = ledger.slot b n := by
  simp [put, slot, hid, hname]

theorem put_comm (ledger : Ledger) {a b m n : String} (σ τ : Slot) (hid : a ≠ b) (hname : m ≠ n) :
    (ledger.put a m σ).put b n τ = (ledger.put b n τ).put a m σ := by
  unfold put
  rw [Function.update_comm hid, Function.update_comm hname, Function.update_comm hname]

/-- A call for an id: by its slot when the id has a language with a grammar; otherwise nothing can
change. -/
def load (r : Registry) (id : String) (ledger : Ledger) : Answer × Ledger :=
  match r.grammarLanguage? id with
  | some l =>
    let (answer, slot) := (ledger.slot id l.name).load r l
    (answer, ledger.put id l.name slot)
  | none =>
    match ledger.kept id with
    | some g => (.ok g, ledger)
    | none => (.error (.unsupportedLanguage id), ledger)

end Ledger

namespace Registry

def Apart (r : Registry) (a b : String) : Prop :=
  a ≠ b ∧ ∀ l m, r.grammarLanguage? a = some l → r.grammarLanguage? b = some m → l.name ≠ m.name

theorem Apart.symm {r : Registry} {a b : String} (h : r.Apart a b) : r.Apart b a :=
  ⟨h.1.symm, fun l m hl hm => (h.2 m l hm hl).symm⟩

theorem ledger_loadAnew (r : Registry) (l : Language) (s : Session) (id : String) :
    (r.loadAnew l s).1 = ((s.ledger.slot id l.name).attempt r l).1 ∧
      (r.loadAnew l s).2.ledger = s.ledger.put id l.name
        ((s.ledger.slot id l.name).attempt r l).2 := by
  have hslot : s.ledger.slot id l.name = ⟨s.loaded.lookup id, s.loads.count l.name,
      s.compiles.count l.name⟩ := rfl
  unfold loadAnew Slot.attempt
  rw [hslot]
  dsimp only
  cases r.load l (s.loads.count l.name) with
  | error f => exact ⟨rfl, by simp [Session.ledger, Ledger.put, Tally.count_bump]⟩
  | ok u =>
    cases r.compile l (s.compiles.count l.name) with
    | error f => exact ⟨rfl, by simp [Session.ledger, Ledger.put, Tally.count_bump]⟩
    | ok q => exact ⟨rfl, by simp [Session.ledger, Session.emit, Ledger.put, Tally.count_bump]⟩

theorem kept_loadAnew (r : Registry) (l : Language) (s : Session) :
    (r.loadAnew l s).2.ledger.kept = s.ledger.kept := by
  rw [(ledger_loadAnew r l s l.name).2]
  simp [Ledger.put, Ledger.slot]

theorem ledger_keep (id : String) (g : LoadedGrammar) (s : Session)
    (habsent : s.ledger.kept id = none) :
    (keep id g s).ledger = { s.ledger with kept := Function.update s.ledger.kept id (some g) } := by
  have hlookup : s.loaded.lookup id = none := habsent
  unfold keep Session.ledger
  congr 1
  funext k
  rw [List.lookup_append]
  by_cases h : k = id
  · subst h
    simp [hlookup]
  · simp [lookup_cons_of_ne h, h]

theorem ledger_loadGrammar (r : Registry) (id : String) (s : Session) :
    (r.loadGrammar id s).1 = (s.ledger.load r id).1 ∧
      (r.loadGrammar id s).2.ledger = (s.ledger.load r id).2 := by
  unfold loadGrammar Ledger.load
  cases hkept : s.loaded.lookup id with
  | some g =>
    cases r.grammarLanguage? id with
    | none => simp [Session.ledger, hkept]
    | some l =>
      have hslot : (s.ledger.slot id l.name).kept = some g := hkept
      simp [Slot.load, hslot]
  | none =>
    cases r.grammarLanguage? id with
    | none => simp [Session.ledger, hkept]
    | some l =>
      have hslot : (s.ledger.slot id l.name).kept = none := hkept
      obtain ⟨hanswer, hledger⟩ := ledger_loadAnew r l s id
      have habsent := Slot.kept_attempt r l (s.ledger.slot id l.name)
      rw [hslot] at habsent
      simp only [Slot.load, hslot]
      generalize r.loadAnew l s = result at hanswer hledger ⊢
      generalize (s.ledger.slot id l.name).attempt r l = tried at hanswer hledger habsent ⊢
      obtain ⟨answer, s'⟩ := result
      obtain ⟨_, slot⟩ := tried
      subst hanswer
      cases answer with
      | error e => exact ⟨rfl, hledger⟩
      | ok g =>
        refine ⟨rfl, ?_⟩
        have hkept' : s'.ledger.kept id = none := by
          simpa [hledger, Ledger.put] using habsent
        rw [ledger_keep id g s' hkept', hledger]
        simp [Ledger.put]

end Registry

namespace Ledger

variable {r : Registry} {a b : String}

theorem load_of_some {id : String} {l : Language} (h : r.grammarLanguage? id = some l)
    (ledger : Ledger) :
    ledger.load r id = (((ledger.slot id l.name).load r l).1,
      ledger.put id l.name ((ledger.slot id l.name).load r l).2) := by
  simp [load, h]

theorem load_of_none {id : String} (h : r.grammarLanguage? id = none) (ledger : Ledger) :
    (ledger.load r id).2 = ledger := by
  unfold load
  rw [h]
  dsimp only
  split <;> rfl

theorem load_of_kept {id : String} {g : LoadedGrammar} {ledger : Ledger}
    (h : ledger.kept id = some g) : ledger.load r id = (.ok g, ledger) := by
  cases hlanguage : r.grammarLanguage? id with
  | none => simp [load, hlanguage, h]
  | some l =>
    have hslot : (ledger.slot id l.name).kept = some g := h
    simp [load, hlanguage, Slot.load, hslot]

theorem kept_load_of_ne (h : b ≠ a) (ledger : Ledger) :
    (ledger.load r a).2.kept b = ledger.kept b := by
  cases ha : r.grammarLanguage? a with
  | none => rw [load_of_none ha]
  | some l =>
    rw [load_of_some ha]
    exact Function.update_of_ne h _ _

theorem slot_load_of_apart (h : r.Apart a b) {m : Language} (hb : r.grammarLanguage? b = some m)
    (ledger : Ledger) : (ledger.load r a).2.slot b m.name = ledger.slot b m.name := by
  cases ha : r.grammarLanguage? a with
  | none => rw [load_of_none ha]
  | some l =>
    rw [load_of_some ha]
    exact slot_put_of_ne ledger _ h.1.symm (h.2 l m ha hb).symm

theorem load_answer_of_apart (h : r.Apart a b) (ledger : Ledger) :
    ((ledger.load r a).2.load r b).1 = (ledger.load r b).1 := by
  cases hb : r.grammarLanguage? b with
  | none =>
    have hkept := kept_load_of_ne (r := r) h.1.symm ledger
    simp only [load, hb] at hkept ⊢
    rw [hkept]
    cases ledger.kept b <;> rfl
  | some m => rw [load_of_some hb, load_of_some hb, slot_load_of_apart h hb]

theorem load_comm (h : r.Apart a b) (ledger : Ledger) :
    ((ledger.load r a).2.load r b).2 = ((ledger.load r b).2.load r a).2 := by
  cases ha : r.grammarLanguage? a with
  | none => rw [load_of_none ha, load_of_none ha]
  | some l =>
    cases hb : r.grammarLanguage? b with
    | none => rw [load_of_none hb, load_of_none hb]
    | some m =>
      have hslotB := slot_load_of_apart h hb ledger
      have hslotA := slot_load_of_apart h.symm ha ledger
      rw [load_of_some hb, load_of_some ha (ledger.load r b).2, hslotA, hslotB,
        load_of_some ha, load_of_some hb]
      exact put_comm ledger _ _ h.1 (h.2 l m ha hb)

end Ledger

end SourceOutline
