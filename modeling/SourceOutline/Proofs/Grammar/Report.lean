import Mathlib.Data.List.Basic
import SourceOutline.Proofs.Grammar.Ledger

/-! What a request for several grammars reports. Each id is asked for once, and ids under which the
registry holds their own languages do not affect each other; so the report says of every id what a
call for it alone would answer. -/
namespace SourceOutline

section FirstOccurrence

variable {α : Type} [DecidableEq α]

theorem idxOf_lt_of_filter {keep : α → Bool} {a b : α} (ha : keep a) (hb : keep b) (l : List α)
    (h : (l.filter keep).idxOf a < (l.filter keep).idxOf b) : l.idxOf a < l.idxOf b := by
  induction l with
  | nil => exact h
  | cons c l ih =>
    by_cases hc : keep c
    · rw [List.filter_cons_of_pos hc] at h
      by_cases hca : c = a
      · subst hca
        by_cases hcb : c = b
        · simp [hcb] at h
        · simp [List.idxOf_cons_ne _ hcb]
      · by_cases hcb : c = b
        · simp [hcb] at h
        · rw [List.idxOf_cons_ne _ hca, List.idxOf_cons_ne _ hcb] at h ⊢
          exact Nat.succ_lt_succ (ih (Nat.lt_of_succ_lt_succ h))
    · have hca : c ≠ a := fun heq => hc (heq ▸ ha)
      have hcb : c ≠ b := fun heq => hc (heq ▸ hb)
      rw [List.filter_cons_of_neg hc] at h
      rw [List.idxOf_cons_ne _ hca, List.idxOf_cons_ne _ hcb]
      exact Nat.succ_lt_succ (ih h)

theorem pairwise_idxOf_eraseDups (l : List α) :
    l.eraseDups.Pairwise (fun a b => l.idxOf a < l.idxOf b) := by
  -- By the length: what is left after an element is the rest without it, and not a part of the
  -- list.
  match l with
  | [] => simp
  | c :: l =>
    have hrest := pairwise_idxOf_eraseDups (l.filter fun b => !b == c)
    have hne : ∀ {b}, b ∈ (l.filter fun b => !b == c).eraseDups → c ≠ b := by
      intro b hb
      have hkeep := (List.mem_filter.mp (List.mem_eraseDups.mp hb)).2
      rintro rfl
      simp at hkeep
    rw [List.eraseDups_cons, List.pairwise_cons]
    constructor
    · intro b hb
      rw [List.idxOf_cons_self, List.idxOf_cons_ne _ (hne hb)]
      exact Nat.succ_pos _
    · refine hrest.imp_of_mem fun {a b} ha hb hlt => ?_
      rw [List.idxOf_cons_ne _ (hne ha), List.idxOf_cons_ne _ (hne hb)]
      refine Nat.succ_lt_succ (idxOf_lt_of_filter ?_ ?_ l hlt)
      · simp [(hne ha).symm]
      · simp [(hne hb).symm]
termination_by l.length
decreasing_by
  simp only [List.length_cons]
  exact Nat.lt_succ_of_le (List.length_filter_le _ _)

theorem nodup_eraseDups (l : List α) : l.eraseDups.Nodup := by
  refine (pairwise_idxOf_eraseDups l).imp ?_
  rintro a _ hlt rfl
  exact Nat.lt_irrefl _ hlt

theorem eraseDups_sublist (l : List α) : l.eraseDups.Sublist l := by
  match l with
  | [] => simp
  | a :: l =>
    rw [List.eraseDups_cons]
    exact ((eraseDups_sublist _).trans List.filter_sublist).cons_cons a
termination_by l.length
decreasing_by
  simp only [List.length_cons]
  exact Nat.lt_succ_of_le (List.length_filter_le _ _)

end FirstOccurrence

theorem not_decide_lt_iff (a b : String) : (!decide (b < a)) ↔ a ≤ b := by
  simp only [Bool.not_eq_true', decide_eq_false_iff_not, String.not_lt]

theorem pairwise_mergeSort_texts (texts : List String) :
    (texts.mergeSort fun a b => !decide (b < a)).Pairwise (· ≤ ·) := by
  have hsorted : (texts.mergeSort fun a b => !decide (b < a)).Pairwise fun a b =>
      !decide (b < a) := by
    apply List.pairwise_mergeSort
    · intro a b c
      rw [not_decide_lt_iff, not_decide_lt_iff, not_decide_lt_iff]
      exact String.le_trans
    · intro a b
      rw [Bool.or_eq_true, not_decide_lt_iff, not_decide_lt_iff]
      exact String.le_total a b
  apply hsorted.imp
  intro a b
  exact (not_decide_lt_iff a b).mp

namespace Registry

def Holds (r : Registry) (id : String) : Prop := ∃ l, r.grammarLanguage? id = some l ∧ l.name = id

theorem Holds.apart {r : Registry} {a b : String} (ha : r.Holds a) (hb : r.Holds b) (hne : a ≠ b) :
    r.Apart a b := by
  obtain ⟨l, hl, rfl⟩ := ha
  obtain ⟨m, hm, rfl⟩ := hb
  refine ⟨hne, fun l' m' hl' hm' => ?_⟩
  rw [hl] at hl'
  rw [hm] at hm'
  cases hl'
  cases hm'
  exact hne

theorem Holds.isSome {r : Registry} {id : String} (h : r.Holds id) :
    (r.grammarLanguage? id).isSome := by
  obtain ⟨l, hl, -⟩ := h
  simp [hl]

def failure? : Answer → Option OutlineError
  | .ok _ => none
  | .error e => some e

namespace LoadReport

/-- What a report says of an id. -/
def answer? (report : LoadReport) (id : String) : Option Answer :=
  match report.failures.lookup id, report.loaded.lookup id with
  | some e, _ => some (.error e)
  | none, some g => some (.ok g)
  | none, none => none

theorem answer?_eq_none_iff {report : LoadReport} {id : String} :
    report.answer? id = none ↔ report.failures.lookup id = none ∧
      report.loaded.lookup id = none := by
  unfold answer?
  cases report.failures.lookup id <;> cases report.loaded.lookup id <;> simp

theorem answer?_eq_error_iff {report : LoadReport} {id : String} {e : OutlineError} :
    report.answer? id = some (.error e) ↔ report.failures.lookup id = some e := by
  unfold answer?
  cases report.failures.lookup id <;> cases report.loaded.lookup id <;> simp

def add (report : LoadReport) (id : String) : Answer → LoadReport
  | .ok g => { report with loaded := report.loaded ++ [(id, g)] }
  | .error e => { report with failures := report.failures ++ [(id, e)] }

theorem loaded_add (report : LoadReport) (id : String) (answer : Answer) :
    (report.add id answer).loaded = report.loaded ++ (answer.toOption.map (id, ·)).toList := by
  cases answer <;> simp [add, Except.toOption]

theorem failures_add (report : LoadReport) (id : String) (answer : Answer) :
    (report.add id answer).failures =
      report.failures ++ ((failure? answer).map (id, ·)).toList := by
  cases answer <;> simp [add, failure?]

end LoadReport

theorem lookup_of_grammarLanguage? {r : Registry} {id : String} {l : Language}
    (h : r.grammarLanguage? id = some l) :
    r.languages.lookup id = some l ∧ l.byHeadings = false := by
  obtain ⟨hlookup, hheadings⟩ := Option.filter_eq_some_iff.mp h
  exact ⟨hlookup, by simpa using hheadings⟩

theorem loadNext_eq (r : Registry) (id : String) (report : LoadReport) (s : Session) :
    (r.loadNext id report s).1 = (if (r.grammarLanguage? id).isSome then
      report.add id (s.ledger.load r id).1 else report) ∧
      (r.loadNext id report s).2.ledger = (s.ledger.load r id).2 := by
  cases hl : r.grammarLanguage? id with
  | some l =>
    obtain ⟨hlookup, hheadings⟩ := lookup_of_grammarLanguage? hl
    obtain ⟨hanswer, hledger⟩ := r.ledger_loadGrammar id s
    unfold loadNext
    rw [hlookup, ← hanswer, ← hledger]
    simp only [hheadings, Bool.false_eq_true, if_false]
    rcases r.loadGrammar id s with ⟨answer, after⟩
    cases answer <;> exact ⟨rfl, rfl⟩
  | none =>
    rw [Ledger.load_of_none hl]
    unfold loadNext
    cases hlookup : r.languages.lookup id with
    | none => exact ⟨rfl, rfl⟩
    | some l =>
      have hheadings : l.byHeadings = true := by
        simpa [grammarLanguage?, hlookup] using hl
      simp only [hheadings, if_true]
      exact ⟨rfl, rfl⟩

section Reported

variable {r : Registry} {β : Type} {pick : Answer → Option β} {id : String} {ids : List String}

/-- What calls for the ids with a grammar would answer, each made alone; of the answers those that
are picked. -/
def reported (r : Registry) (ledger : Ledger) (pick : Answer → Option β) (ids : List String) :
    List (String × β) :=
  ids.filterMap fun id => if (r.grammarLanguage? id).isSome then
    (pick (ledger.load r id).1).map (id, ·) else none

theorem reported_cons (ledger : Ledger) (id : String) (ids : List String) :
    reported r ledger pick (id :: ids) =
    (if (r.grammarLanguage? id).isSome then ((pick (ledger.load r id).1).map (id, ·)).toList
      else []) ++ reported r ledger pick ids := by
  unfold reported
  rw [List.filterMap_cons]
  cases (r.grammarLanguage? id).isSome with
  | false => rfl
  | true =>
    simp only [if_true]
    cases pick (ledger.load r id).1 <;> rfl

theorem lookup_reported (ledger : Ledger) (ids : List String) :
    (reported r ledger pick ids).lookup id =
    if id ∈ ids ∧ (r.grammarLanguage? id).isSome then pick (ledger.load r id).1 else none := by
  induction ids with
  | nil => simp [reported]
  | cons a ids ih =>
    rw [reported_cons, List.lookup_append, ih]
    by_cases ha : id = a
    · subst ha
      cases (r.grammarLanguage? id).isSome with
      | false => simp
      | true => cases pick (ledger.load r id).1 <;> simp
    · have hhere :
          (if (r.grammarLanguage? a).isSome then ((pick (ledger.load r a).1).map (a, ·)).toList
        else []).lookup id =
          none := by
        split
        · cases pick (ledger.load r a).1 with
          | none => rfl
          | some b => exact lookup_cons_of_ne ha b []
        · rfl
      rw [hhere, Option.none_or]
      simp [ha]

theorem reported_load (hapart : ∀ k ∈ ids, r.Apart id k) (ledger : Ledger) :
    reported r (ledger.load r id).2 pick ids = reported r ledger pick ids := by
  unfold reported
  apply List.filterMap_congr
  intro k hk
  rw [Ledger.load_answer_of_apart (hapart k hk)]

theorem report_loadEach (hids : ids.Nodup) (hapart : ∀ a ∈ ids, ∀ b ∈ ids, a ≠ b → r.Apart a b)
    (report : LoadReport) (s : Session) :
    (r.loadEach ids report s).1.loaded = report.loaded ++ reported r s.ledger Except.toOption ids ∧
      (r.loadEach ids report s).1.failures = report.failures ++ reported r s.ledger
        failure? ids := by
  induction ids generalizing report s with
  | nil => simp [loadEach, reported]
  | cons id ids ih =>
    obtain ⟨hnew, hrest⟩ := List.nodup_cons.mp hids
    obtain ⟨hreport, hledger⟩ := r.loadNext_eq id report s
    have hothers : ∀ k ∈ ids, r.Apart id k := by
      intro k hk
      exact hapart id (.head _) k (.tail _ hk) (fun heq => hnew (heq ▸ hk))
    have htail :=
      ih hrest (fun a ha b hb => hapart a (.tail _ ha) b (.tail _ hb)) (r.loadNext id report s).1
      (r.loadNext id report s).2
    rw [hledger, reported_load hothers, reported_load hothers, hreport] at htail
    rw [reported_cons, reported_cons]
    change (r.loadEach ids (r.loadNext id report s).1 (r.loadNext id report s).2).1.loaded = _ ∧
      (r.loadEach ids (r.loadNext id report s).1 (r.loadNext id report s).2).1.failures = _
    rw [hreport]
    cases hgrammar : (r.grammarLanguage? id).isSome with
    | false => simpa only [hgrammar, Bool.false_eq_true, if_false, List.nil_append] using htail
    | true =>
      simpa only [hgrammar, if_true, LoadReport.loaded_add, LoadReport.failures_add,
        List.append_assoc] using htail

end Reported

theorem mem_distinctIds {ids : List String} {id : String} : id ∈ distinctIds ids ↔ id ∈ ids := by
  unfold distinctIds
  rw [List.mem_eraseDups, List.mem_mergeSort]

theorem nodup_distinctIds (ids : List String) : (distinctIds ids).Nodup := nodup_eraseDups _

theorem report_loadAll {r : Registry} {ids : List String}
    (hapart : ∀ a ∈ ids, ∀ b ∈ ids, a ≠ b → r.Apart a b) (s : Session) :
    (r.loadAll ids s).1.loaded = reported r s.ledger Except.toOption (distinctIds ids) ∧
      (r.loadAll ids s).1.failures = reported r s.ledger failure? (distinctIds ids) := by
  apply report_loadEach (nodup_distinctIds ids)
  intro a ha b hb
  exact hapart a (mem_distinctIds.mp ha) b (mem_distinctIds.mp hb)

theorem answer?_loadAll {r : Registry} {ids : List String}
    (hapart : ∀ a ∈ ids, ∀ b ∈ ids, a ≠ b → r.Apart a b) (s : Session) {id : String}
    (hid : id ∈ ids) (hgrammar : (r.grammarLanguage? id).isSome) :
    (r.loadAll ids s).1.answer? id = some (s.ledger.load r id).1 := by
  have hasked : id ∈ distinctIds ids ∧ (r.grammarLanguage? id).isSome :=
    ⟨mem_distinctIds.mpr hid, hgrammar⟩
  obtain ⟨hloaded, hfailures⟩ := report_loadAll hapart s
  unfold LoadReport.answer?
  rw [hloaded, hfailures, lookup_reported, lookup_reported, if_pos hasked, if_pos hasked]
  cases (s.ledger.load r id).1 <;> rfl

end Registry

end SourceOutline
