import SourceOutline.Proofs.Grammar.Ledger

/-! Calls one after another. Calls for different ids use different slots, so their order does not
matter: each id gets the same answers, and the ledger ends the same. -/
namespace SourceOutline

/-- The calls for the ids one after another, each answer with its id. -/
def Registry.loadInTurn (r : Registry) : List String → Session → List (String × Answer) × Session
  | [], s => ([], s)
  | id :: ids, s =>
    let (answer, s) := r.loadGrammar id s
    let (rest, s) := r.loadInTurn ids s
    ((id, answer) :: rest, s)

namespace Ledger

variable {r : Registry}

def loadInTurn (r : Registry) : List String → Ledger → List (String × Answer) × Ledger
  | [], ledger => ([], ledger)
  | id :: ids, ledger =>
    let (answer, ledger) := ledger.load r id
    let (rest, ledger) := loadInTurn r ids ledger
    ((id, answer) :: rest, ledger)

theorem loadInTurn_cons (id : String) (ids : List String) (ledger : Ledger) :
    loadInTurn r (id :: ids) ledger =
      ((id, (ledger.load r id).1) :: (loadInTurn r ids (ledger.load r id).2).1,
        (loadInTurn r ids (ledger.load r id).2).2) := rfl

theorem loadInTurn_concat (ids : List String) (id : String) (ledger : Ledger) :
    loadInTurn r (ids ++ [id]) ledger =
      ((loadInTurn r ids ledger).1 ++ [(id, ((loadInTurn r ids ledger).2.load r id).1)],
        ((loadInTurn r ids ledger).2.load r id).2) := by
  induction ids generalizing ledger with
  | nil => rfl
  | cons first rest ih =>
    rw [List.cons_append, loadInTurn_cons, ih, loadInTurn_cons]
    rfl

@[simp] theorem map_fst_loadInTurn (ids : List String) (ledger : Ledger) :
    (loadInTurn r ids ledger).1.map Prod.fst = ids := by
  induction ids generalizing ledger with
  | nil => rfl
  | cons id ids ih => rw [loadInTurn_cons, List.map_cons, ih]

theorem loadInTurn_perm {ids order : List String} (hperm : ids.Perm order)
    (apart : ∀ a ∈ ids, ∀ b ∈ ids, a ≠ b → r.Apart a b) (ledger : Ledger) :
    (loadInTurn r ids ledger).1.Perm (loadInTurn r order ledger).1 ∧
      (loadInTurn r ids ledger).2 = (loadInTurn r order ledger).2 := by
  induction hperm generalizing ledger with
  | nil => exact ⟨.nil, rfl⟩
  | cons id _ ih =>
    have htail := ih (fun a ha b hb => apart a (.tail _ ha) b (.tail _ hb)) (ledger.load r id).2
    exact ⟨htail.1.cons _, htail.2⟩
  | swap b a rest =>
    by_cases hab : a = b
    · subst hab
      exact ⟨.rfl, rfl⟩
    · have hapart : r.Apart a b := apart a (by simp) b (by simp) hab
      simp only [loadInTurn_cons]
      rw [load_answer_of_apart hapart, load_answer_of_apart hapart.symm, load_comm hapart]
      exact ⟨.swap .., rfl⟩
  | trans h₁ _ ih₁ ih₂ =>
    have hfirst := ih₁ apart ledger
    have hsecond := ih₂ (fun a ha b hb => apart a (h₁.mem_iff.mpr ha) b (h₁.mem_iff.mpr hb)) ledger
    exact ⟨hfirst.1.trans hsecond.1, hfirst.2.trans hsecond.2⟩

end Ledger

theorem Registry.ledger_loadInTurn (r : Registry) (ids : List String) (s : Session) :
    (r.loadInTurn ids s).1 = (s.ledger.loadInTurn r ids).1 ∧
      (r.loadInTurn ids s).2.ledger = (s.ledger.loadInTurn r ids).2 := by
  induction ids generalizing s with
  | nil => exact ⟨rfl, rfl⟩
  | cons id ids ih =>
    obtain ⟨hanswer, hledger⟩ := r.ledger_loadGrammar id s
    have htail := ih (r.loadGrammar id s).2
    rw [hledger] at htail
    exact ⟨congrArg₂ (fun a rest => (id, a) :: rest) hanswer htail.1, htail.2⟩

end SourceOutline
