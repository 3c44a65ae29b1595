import SourceOutline.Proofs.Grammar.InTurn
import SourceOutline.Proofs.Grammar.Report

/-! How often the loader is called. Only calls for its id change a slot, so it depends on their
number alone. While they fail each of them calls the loader; once one has succeeded no later one
does. -/
namespace SourceOutline

namespace Registry

/-- How often the compiler was called when the loader was called `n` times without success. -/
def compilesAfter (r : Registry) (l : Language) (n : Nat) : Nat :=
  (List.range n).countP fun k => (r.load l k).isOk

/-- Whether loader and compiler succeed at attempt number `n`, counted from zero, when all before it
failed. -/
def succeedsAt (r : Registry) (l : Language) (n : Nat) : Bool :=
  (r.load l n).isOk && (r.compile l (r.compilesAfter l n)).isOk

/-- The first attempts of `n`, up to the first success and with it; all of them when none
succeeds. -/
def attemptsToSuccess (r : Registry) (l : Language) (n : Nat) : Nat :=
  match (List.range n).find? (r.succeedsAt l) with
  | some k => k + 1
  | none => n

theorem compilesAfter_succ (r : Registry) (l : Language) (n : Nat) :
    r.compilesAfter l (n + 1) = r.compilesAfter l n + if (r.load l n).isOk then 1 else 0 := by
  simp [compilesAfter, List.range_succ]

end Registry

namespace Slot

variable {r : Registry} {l : Language}

def after (r : Registry) (l : Language) : Nat → Slot
  | 0 => ⟨none, 0, 0⟩
  | n + 1 => ((after r l n).load r l).2

theorem load_fresh (r : Registry) (l : Language) (n : Nat) :
    let slot : Slot := ⟨none, n, r.compilesAfter l n⟩
    (slot.load r l).1.isOk = r.succeedsAt l n ∧
      if r.succeedsAt l n then (slot.load r l).2.kept.isSome ∧ (slot.load r l).2.loads = n + 1
      else (slot.load r l).2 = ⟨none, n + 1, r.compilesAfter l (n + 1)⟩ := by
  simp only [load, attempt, Registry.succeedsAt, Registry.compilesAfter_succ]
  cases r.load l n with
  | error f => simp [Except.isOk, Except.toBool]
  | ok u => cases r.compile l (r.compilesAfter l n) <;> simp [Except.isOk, Except.toBool]

/-- What a slot holds after `n` calls: a grammar since the first success, else only the counts of
failures. -/
theorem after_spec (r : Registry) (l : Language) (n : Nat) :
    match (List.range n).find? (r.succeedsAt l) with
    | some k => (after r l n).kept.isSome ∧ (after r l n).loads = k + 1
    | none => after r l n = ⟨none, n, r.compilesAfter l n⟩ := by
  induction n with
  | zero => rfl
  | succ n ih =>
    rw [List.range_succ, List.find?_append, List.find?_singleton]
    cases hfirst : (List.range n).find? (r.succeedsAt l) with
    | some k =>
      rw [hfirst] at ih
      obtain ⟨g, hg⟩ := Option.isSome_iff_exists.mp ih.1
      simpa [after, load, hg] using ih.2
    | none =>
      rw [hfirst] at ih
      have hfresh := (load_fresh r l n).2
      dsimp only at ih hfresh
      rw [← ih] at hfresh
      cases hsucceeds : r.succeedsAt l n <;> simpa [after, hsucceeds] using hfresh

theorem isOk_load_after (r : Registry) (l : Language) (n : Nat) :
    ((after r l n).load r l).1.isOk ↔ ∃ k ≤ n, r.succeedsAt l k := by
  have hspec := after_spec r l n
  cases hfirst : (List.range n).find? (r.succeedsAt l) with
  | some k =>
    rw [hfirst] at hspec
    obtain ⟨g, hg⟩ := Option.isSome_iff_exists.mp hspec.1
    have hlt := List.mem_range.mp (List.mem_of_find?_eq_some hfirst)
    simp only [load, hg]
    exact ⟨fun _ => ⟨k, Nat.le_of_lt hlt, List.find?_some hfirst⟩, fun _ => rfl⟩
  | none =>
    rw [hfirst] at hspec
    dsimp only at hspec
    rw [hspec, (load_fresh r l n).1]
    constructor
    · intro h
      exact ⟨n, Nat.le_refl n, h⟩
    · rintro ⟨k, hk, hsucceeds⟩
      rcases Nat.lt_or_eq_of_le hk with hlt | rfl
      · exact absurd hsucceeds (List.find?_eq_none.mp hfirst k (List.mem_range.mpr hlt))
      · exact hsucceeds

theorem loads_after (r : Registry) (l : Language) (n : Nat) :
    (after r l n).loads = r.attemptsToSuccess l n := by
  have hspec := after_spec r l n
  unfold Registry.attemptsToSuccess
  cases hfirst : (List.range n).find? (r.succeedsAt l) with
  | some k =>
    rw [hfirst] at hspec
    exact hspec.2
  | none =>
    rw [hfirst] at hspec
    dsimp only at hspec
    rw [hspec]

theorem after_foldl {σ β : Type} (slotOf : σ → Slot) (step : σ → β → σ) (calls : β → Bool)
    (hstep : ∀ s b, slotOf (step s b) = if calls b then ((slotOf s).load r l).2 else slotOf s)
    {n : Nat} {s : σ} (hs : slotOf s = after r l n) (bs : List β) :
    slotOf (bs.foldl step s) = after r l (n + bs.countP calls) := by
  induction bs generalizing n s with
  | nil => exact hs
  | cons b bs ih =>
    rw [List.foldl_cons, List.countP_cons]
    cases hb : calls b with
    | false =>
      have hsame : slotOf (step s b) = after r l n := by simp [hstep, hb, hs]
      simpa using ih hsame
    | true =>
      have hnext : slotOf (step s b) = after r l (n + 1) := by simp [hstep, hb, hs, after]
      have hrest := ih hnext
      rw [Nat.add_right_comm] at hrest
      simpa [Nat.add_assoc] using hrest

end Slot

namespace Ledger

variable {r : Registry} {id : String} {l : Language}

theorem slot_put_self (ledger : Ledger) (id name : String) (σ : Slot) :
    (ledger.put id name σ).slot id name = σ := by
  simp [put, slot]

theorem slot_load_self (hl : r.grammarLanguage? id = some l) (ledger : Ledger) :
    (ledger.load r id).2.slot id l.name = ((ledger.slot id l.name).load r l).2 := by
  rw [load_of_some hl]
  exact slot_put_self ledger id l.name _

theorem slot_loadInTurn {ids : List String} (hids : ids.Nodup)
    (hapart : ∀ a ∈ ids, a ≠ id → r.Apart a id) (hl : r.grammarLanguage? id = some l)
    (ledger : Ledger) :
    (loadInTurn r ids ledger).2.slot id l.name =
      if id ∈ ids then ((ledger.slot id l.name).load r l).2 else ledger.slot id l.name := by
  induction ids generalizing ledger with
  | nil => rfl
  | cons a ids ih =>
    obtain ⟨hnew, hrest⟩ := List.nodup_cons.mp hids
    rw [loadInTurn_cons]
    dsimp only
    rw [ih hrest (fun b hb => hapart b (.tail _ hb))]
    by_cases ha : a = id
    · subst ha
      rw [if_neg hnew, if_pos (.head _), slot_load_self hl]
    · rw [slot_load_of_apart (hapart a (.head _) ha) hl]
      simp [Ne.symm ha]

end Ledger

namespace Registry

theorem ledger_loadEach (r : Registry) (ids : List String) (report : LoadReport) (s : Session) :
    (r.loadEach ids report s).2.ledger = (s.ledger.loadInTurn r ids).2 := by
  induction ids generalizing report s with
  | nil => rfl
  | cons id ids ih =>
    have htail := ih (r.loadNext id report s).1 (r.loadNext id report s).2
    rw [(r.loadNext_eq id report s).2] at htail
    exact htail

theorem slot_loadAll {r : Registry} {ids : List String} {id : String} {l : Language}
    (hapart : ∀ a ∈ ids, a ≠ id → r.Apart a id) (hl : r.grammarLanguage? id = some l)
    (s : Session) :
    (r.loadAll ids s).2.ledger.slot id l.name =
      if id ∈ ids then ((s.ledger.slot id l.name).load r l).2 else s.ledger.slot id l.name := by
  unfold loadAll
  rw [ledger_loadEach,
    Ledger.slot_loadInTurn (nodup_distinctIds ids) (fun a ha => hapart a (mem_distinctIds.mp ha))
    hl]
  simp only [mem_distinctIds]

end Registry

end SourceOutline
