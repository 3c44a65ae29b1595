import SourceOutline.Proofs.Grammar.History

/-! Requests for several grammars. The ids of a request are put in order without repetitions, so a
request is as good as the set of its ids. Each id with a grammar then makes one call, on a slot of
the ledger that no other id of the request touches: what is reported of it and what becomes of its
slot is what the call alone would do, and everything else stays as it was. -/
namespace SourceOutline

namespace Registry

theorem distinctIds_pairwise (ids : List String) : (distinctIds ids).Pairwise (· ≤ ·) :=
  (pairwise_mergeSort_texts ids).sublist (eraseDups_sublist _)

theorem distinctIds_congr {ids ids' : List String} (h : ∀ id, id ∈ ids' ↔ id ∈ ids) :
    distinctIds ids' = distinctIds ids := by
  apply List.Perm.eq_of_pairwise _ (distinctIds_pairwise ids') (distinctIds_pairwise ids)
  · rw [List.perm_ext_iff_of_nodup (nodup_distinctIds ids') (nodup_distinctIds ids)]
    intro id
    rw [mem_distinctIds, mem_distinctIds, h]
  · intro a b _ _ hab hba
    exact String.le_antisymm hab hba

section Report

variable {r : Registry} {β : Type} {pick : Answer → Option β} {id : String} {ids : List String}

theorem mem_reported {ledger : Ledger} {b : β} : (id, b) ∈ reported r ledger pick ids ↔
    id ∈ ids ∧ (r.grammarLanguage? id).isSome ∧ pick (ledger.load r id).1 = some b := by
  unfold reported
  rw [List.mem_filterMap]
  constructor
  · rintro ⟨k, hk, hentry⟩
    split at hentry
    · rename_i hgrammar
      obtain ⟨c, hc, heq⟩ := Option.map_eq_some_iff.mp hentry
      cases heq
      exact ⟨hk, hgrammar, hc⟩
    · cases hentry
  · rintro ⟨hid, hgrammar, hpick⟩
    refine ⟨id, hid, ?_⟩
    rw [if_pos hgrammar, hpick]
    rfl

theorem mem_map_fst_reported {ledger : Ledger} : id ∈ (reported r ledger pick ids).map Prod.fst ↔
    id ∈ ids ∧ (r.grammarLanguage? id).isSome ∧ (pick (ledger.load r id).1).isSome := by
  simp only [List.mem_map, Prod.exists, exists_and_right, exists_eq_right,
    mem_reported, exists_and_left,
    Option.isSome_iff_exists]

theorem map_fst_reported_sublist (ledger : Ledger) (ids : List String) :
    ((reported r ledger pick ids).map Prod.fst).Sublist ids := by
  induction ids with
  | nil => exact .slnil
  | cons id ids ih =>
    rw [reported_cons, List.map_append, ← List.singleton_append]
    apply List.Sublist.append _ ih
    split
    · cases pick (ledger.load r id).1 <;> simp
    · simp

end Report

end Registry

namespace Ledger

variable {r : Registry} {id name : String} {ids : List String}

theorem counts_load (h : ∀ l, r.grammarLanguage? id = some l → l.name ≠ name) (ledger : Ledger) :
    (ledger.load r id).2.loads name = ledger.loads name ∧
      (ledger.load r id).2.compiles name = ledger.compiles name := by
  cases hl : r.grammarLanguage? id with
  | none => simp [load_of_none hl]
  | some l =>
    have hne := (h l hl).symm
    simp [load_of_some hl, put, hne]

theorem counts_loadInTurn (h : ∀ id ∈ ids, ∀ l, r.grammarLanguage? id = some l → l.name ≠ name)
    (ledger : Ledger) :
    (ledger.loadInTurn r ids).2.loads name = ledger.loads name ∧
      (ledger.loadInTurn r ids).2.compiles name = ledger.compiles name := by
  induction ids generalizing ledger with
  | nil => exact ⟨rfl, rfl⟩
  | cons id ids ih =>
    obtain ⟨hloads, hcompiles⟩ := counts_load (h id (.head _)) ledger
    obtain ⟨hloads', hcompiles'⟩ := ih (fun k hk => h k (.tail _ hk)) (ledger.load r id).2
    rw [loadInTurn_cons]
    exact ⟨hloads'.trans hloads, hcompiles'.trans hcompiles⟩

theorem kept_loadInTurn (h : id ∈ ids → r.grammarLanguage? id = none) (ledger : Ledger) :
    (ledger.loadInTurn r ids).2.kept id = ledger.kept id := by
  induction ids generalizing ledger with
  | nil => rfl
  | cons a ids ih =>
    have hhere : (ledger.load r a).2.kept id = ledger.kept id := by
      by_cases heq : a = id
      · subst heq
        rw [load_of_none (h (.head _))]
      · exact kept_load_of_ne (Ne.symm heq) ledger
    rw [loadInTurn_cons]
    exact (ih (fun hid => h (.tail _ hid)) _).trans hhere

end Ledger

namespace Registry

/-- The languages of the ids have different names. -/
def DistinctAmong (r : Registry) (ids : List String) : Prop :=
  ∀ a ∈ ids, ∀ b ∈ ids, ∀ l m, r.grammarLanguage? a = some l → r.grammarLanguage? b = some m →
    l.name = m.name → a = b

section Request

variable {r : Registry} {ids : List String} (distinct : r.DistinctAmong ids) (s : Session)
  {id : String}

include distinct

theorem DistinctAmong.apart : ∀ a ∈ ids, ∀ b ∈ ids, a ≠ b → r.Apart a b := by
  intro a ha b hb hne
  exact ⟨hne, fun l m hl hm hname => hne (distinct a ha b hb l m hl hm hname)⟩

theorem mem_loaded_loadAll {g : LoadedGrammar} : (id, g) ∈ (r.loadAll ids s).1.loaded ↔
    id ∈ ids ∧ (r.grammarLanguage? id).isSome ∧ (r.loadGrammar id s).1 = .ok g := by
  rw [(report_loadAll distinct.apart s).1, mem_reported,
    mem_distinctIds, ← (r.ledger_loadGrammar id s).1]
  cases (r.loadGrammar id s).1 <;> simp [Except.toOption]

theorem mem_failures_loadAll {e : OutlineError} : (id, e) ∈ (r.loadAll ids s).1.failures ↔
    id ∈ ids ∧ (r.grammarLanguage? id).isSome ∧ (r.loadGrammar id s).1 = .error e := by
  rw [(report_loadAll distinct.apart s).2, mem_reported,
    mem_distinctIds, ← (r.ledger_loadGrammar id s).1]
  cases (r.loadGrammar id s).1 <;> simp [failure?]

theorem nodup_report :
    ((r.loadAll ids s).1.loaded.map Prod.fst ++ (r.loadAll ids s).1.failures.map
      Prod.fst).Nodup := by
  rw [List.nodup_append]
  refine ⟨?_, ?_, ?_⟩
  · rw [(report_loadAll distinct.apart s).1]
    exact (map_fst_reported_sublist _ _).nodup (nodup_distinctIds ids)
  · rw [(report_loadAll distinct.apart s).2]
    exact (map_fst_reported_sublist _ _).nodup (nodup_distinctIds ids)
  · intro id hloaded id' hfailed heq
    subst heq
    rw [(report_loadAll distinct.apart s).1] at hloaded
    rw [(report_loadAll distinct.apart s).2] at hfailed
    have hok := (mem_map_fst_reported.mp hloaded).2.2
    have herror := (mem_map_fst_reported.mp hfailed).2.2
    cases hanswer : (s.ledger.load r id).1 with
    | ok g => simp [hanswer, failure?] at herror
    | error e => simp [hanswer, Except.toOption] at hok

theorem mem_report_iff :
    id ∈ (r.loadAll ids s).1.loaded.map Prod.fst ++ (r.loadAll ids s).1.failures.map Prod.fst ↔
    id ∈ ids ∧ (r.grammarLanguage? id).isSome := by
  have hsome : ∀ answer : Answer, answer.toOption.isSome ∨ (failure? answer).isSome := by
    intro answer
    cases answer with
    | ok g => exact .inl rfl
    | error e => exact .inr rfl
  rw [List.mem_append, (report_loadAll distinct.apart s).1, (report_loadAll distinct.apart s).2,
    mem_map_fst_reported,
    mem_map_fst_reported, mem_distinctIds, ← and_or_left, ← and_or_left, and_iff_left (hsome _)]

theorem slot_loadAll_of_mem {l : Language} (hid : id ∈ ids) (hl : r.grammarLanguage? id = some l) :
    (r.loadAll ids s).2.ledger.slot id l.name = (r.loadGrammar id s).2.ledger.slot id l.name := by
  rw [slot_loadAll (fun a ha => distinct.apart a ha id hid) hl, if_pos hid,
    (r.ledger_loadGrammar id s).2,
    Ledger.slot_load_self hl]

end Request

/-- A request for several grammars is as good as calls for its ids, each alone. Every id with a
grammar is in one part of the report, with what its call answers, and no other id is in any; the
call leaves the same grammar and the same counts in the slot of the id, and whatever belongs to no
id of the request stays as it was; how often and in which order ids are given is not noticed. -/
theorem request_splits_into_single_calls (r : Registry) (ids : List String) (s : Session)
    (distinct : r.DistinctAmong ids) :
    let report := (r.loadAll ids s).1
    let after := (r.loadAll ids s).2
    (report.loaded.map Prod.fst ++ report.failures.map Prod.fst).Nodup ∧
    (∀ id, id ∈ report.loaded.map Prod.fst ++ report.failures.map Prod.fst ↔
      id ∈ ids ∧ (r.grammarLanguage? id).isSome) ∧
    (∀ id g, (id, g) ∈ report.loaded → (r.loadGrammar id s).1 = .ok g) ∧
    (∀ id e, (id, e) ∈ report.failures → (r.loadGrammar id s).1 = .error e) ∧
    (∀ id l, id ∈ ids → r.grammarLanguage? id = some l →
      after.ledger.slot id l.name = (r.loadGrammar id s).2.ledger.slot id l.name) ∧
    (∀ id, (id ∈ ids → r.grammarLanguage? id = none) →
      after.loaded.lookup id = s.loaded.lookup id) ∧
    (∀ name, (∀ id ∈ ids, ∀ l, r.grammarLanguage? id = some l → l.name ≠ name) →
      after.loads.count name = s.loads.count name ∧
        after.compiles.count name = s.compiles.count name) ∧
    ∀ ids', (∀ id, id ∈ ids' ↔ id ∈ ids) → r.loadAll ids' s = r.loadAll ids s := by
  intro report after
  have hledger : after.ledger = (s.ledger.loadInTurn r (distinctIds ids)).2 :=
    r.ledger_loadEach _ _ s
  refine ⟨nodup_report distinct s, fun id => mem_report_iff distinct s, ?_, ?_, ?_, ?_, ?_, ?_⟩
  · intro id g hg
    exact ((mem_loaded_loadAll distinct s).mp hg).2.2
  · intro id e he
    exact ((mem_failures_loadAll distinct s).mp he).2.2
  · intro id l hid hl
    exact slot_loadAll_of_mem distinct s hid hl
  · intro id hid
    have hkept := Ledger.kept_loadInTurn (fun h => hid (mem_distinctIds.mp h)) s.ledger
    rw [← hledger] at hkept
    exact hkept
  · intro name hname
    have hcounts := Ledger.counts_loadInTurn (fun id h => hname id (mem_distinctIds.mp h)) s.ledger
    rw [← hledger] at hcounts
    exact hcounts
  · intro ids' hsame
    unfold loadAll
    rw [distinctIds_congr hsame]

/-- One language fails at first, one has a grammar, one is outlined without and one is unknown; an
id is given twice. -/
theorem request_splits_wavering :
    let ids := ["markdown", "go", "lua", "go", "cobol"]
    wavering.DistinctAmong ids ∧
      (∀ id, id ∈ (wavering.loadAll ids .start).1.loaded.map Prod.fst ++
        (wavering.loadAll ids .start).1.failures.map Prod.fst ↔ id = "go" ∨ id = "lua") ∧
      wavering.loadAll ["cobol", "lua", "markdown", "go"] .start = wavering.loadAll ids .start := by
  intro ids
  have hdistinct : wavering.DistinctAmong ids := fun a _ b _ => wavering_distinct a b
  obtain ⟨-, hmem, -, -, -, -, -, hset⟩ :=
    request_splits_into_single_calls wavering ids .start hdistinct
  refine ⟨hdistinct, ?_, ?_⟩
  · intro id
    rw [hmem]
    have hids : ids.filter (fun id => (wavering.grammarLanguage? id).isSome) =
        ["go", "lua", "go"] := by decide +kernel
    rw [← List.mem_filter (p := fun id => (wavering.grammarLanguage? id).isSome), hids]
    simp [or_comm]
  · apply hset
    intro id
    simp only [ids, List.mem_cons, List.not_mem_nil, or_false]
    tauto

end Registry

end SourceOutline
