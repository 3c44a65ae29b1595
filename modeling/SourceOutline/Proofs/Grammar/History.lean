import SourceOutline.Proofs.Grammar.Attempts

/-! What a registry remembers over all its calls. The loaded grammars only ever grow, by the
grammars that calls report as loaded, and the calls of the loader for a language can be told from
the number of attempts on it. -/
namespace SourceOutline.Registry

variable {r : Registry} {id : String} {s : Session}

inductive Call where
  | load (id : String)
  | loadAll (ids : List String)

def Call.asksFor (id : String) : Call → Bool
  | .load k => k == id
  | .loadAll ids => ids.contains id

def perform (r : Registry) (s : Session) : Call → Session
  | .load id => (r.loadGrammar id s).2
  | .loadAll ids => (r.loadAll ids s).2

/-- The session after calls one after another. -/
def run (r : Registry) (calls : List Call) (s : Session) : Session := calls.foldl r.perform s

theorem loaded_loadAnew (r : Registry) (l : Language) (s : Session) :
    (r.loadAnew l s).2.loaded = s.loaded := by
  unfold loadAnew
  dsimp only
  split
  · rfl
  · split <;> rfl

theorem grammarLanguage?_of_ok {g : LoadedGrammar} (h : (r.loadGrammar id s).1 = .ok g)
    (hnew : s.isLoaded id = false) : (r.grammarLanguage? id).isSome := by
  have hlookup : s.loaded.lookup id = none := by simpa [Session.isLoaded] using hnew
  cases hl : r.grammarLanguage? id with
  | some l => rfl
  | none => simp [loadGrammar, hlookup, hl] at h

/-- A grammar is added when the call answers with it and there was none; else the loaded grammars
stay as they are. -/
theorem loaded_loadGrammar (r : Registry) (id : String) (s : Session) :
    (r.loadGrammar id s).2.loaded = s.loaded ++ match (r.loadGrammar id s).1 with
      | .ok g => if s.isLoaded id then [] else [(id, g)]
      | .error _ => [] := by
  unfold loadGrammar Session.isLoaded
  cases s.loaded.lookup id with
  | some g => simp
  | none =>
    cases r.grammarLanguage? id with
    | none => simp
    | some l =>
      have hloaded := r.loaded_loadAnew l s
      dsimp only
      generalize r.loadAnew l s = result at hloaded ⊢
      obtain ⟨answer, after⟩ := result
      cases answer <;> simpa [keep] using hloaded

theorem loaded_of_error {e : OutlineError} (h : (r.loadGrammar id s).1 = .error e) :
    (r.loadGrammar id s).2.loaded = s.loaded := by
  rw [loaded_loadGrammar, h, List.append_nil]

theorem loaded_loadNext (r : Registry) (id : String) (report : LoadReport) (s : Session) :
    ∃ more, (r.loadNext id report s).1.loaded = report.loaded ++ more ∧
      (∀ entry ∈ more, entry.1 = id ∧ (r.grammarLanguage? id).isSome) ∧
      (r.loadNext id report s).2.loaded = s.loaded ++ more.filter
        (fun entry => !s.isLoaded entry.1) := by
  unfold loadNext
  cases hlookup : r.languages.lookup id with
  | none => exact ⟨[], by simp [Session.emit]⟩
  | some l =>
    dsimp only
    cases hheadings : l.byHeadings with
    | true => exact ⟨[], by simp [Session.emit]⟩
    | false =>
      have hgrammar : r.grammarLanguage? id = some l := by
        simp [grammarLanguage?, hlookup, hheadings]
      have hloaded := r.loaded_loadGrammar id s
      generalize r.loadGrammar id s = result at hloaded ⊢
      obtain ⟨answer, after⟩ := result
      cases answer with
      | error e => exact ⟨[], by simpa [Session.emit] using hloaded⟩
      | ok g =>
        refine ⟨[(id, g)], rfl, by simp [hgrammar], ?_⟩
        cases hid : s.isLoaded id <;> simpa [hid] using hloaded

theorem loaded_of_loadNext_error {e : OutlineError} (h : (r.loadGrammar id s).1 = .error e)
    (report : LoadReport) : (r.loadNext id report s).2.loaded = s.loaded := by
  have hloaded := loaded_of_error h
  unfold loadNext
  generalize r.loadGrammar id s = result at h hloaded ⊢
  obtain ⟨answer, after⟩ := result
  cases h
  split
  · rfl
  · split
    · rfl
    · exact hloaded

theorem loaded_loadEach (r : Registry) {ids : List String} (hids : ids.Nodup) (report : LoadReport)
    (s : Session) :
    ∃ more, (r.loadEach ids report s).1.loaded = report.loaded ++ more ∧
      (∀ entry ∈ more, entry.1 ∈ ids ∧ (r.grammarLanguage? entry.1).isSome) ∧
      (r.loadEach ids report s).2.loaded = s.loaded ++ more.filter
        (fun entry => !s.isLoaded entry.1) := by
  induction ids generalizing report s with
  | nil => exact ⟨[], by simp [loadEach]⟩
  | cons id ids ih =>
    obtain ⟨hnew, hrest⟩ := List.nodup_cons.mp hids
    obtain ⟨here, hreport, hhere, hloaded⟩ := r.loaded_loadNext id report s
    obtain ⟨later, hreport', hlater, hloaded'⟩ :=
      ih hrest (r.loadNext id report s).1 (r.loadNext id report s).2
    -- What this id adds does not matter for the others.
    have hsame : later.filter (fun entry => !(r.loadNext id report s).2.isLoaded entry.1) =
        later.filter (fun entry => !s.isLoaded entry.1) := by
      apply List.filter_congr
      intro entry hentry
      have hne : entry.1 ≠ id := fun heq => hnew (heq ▸ (hlater entry hentry).1)
      have hnone : (here.filter fun entry => !s.isLoaded entry.1).lookup entry.1 = none := by
        apply List.lookup_eq_none_iff.mpr
        intro other hother
        have heq := (hhere other (List.mem_of_mem_filter hother)).1
        simp [heq, hne]
      unfold Session.isLoaded
      rw [hloaded, List.lookup_append, hnone, Option.or_none]
    refine ⟨here ++ later, ?_, ?_, ?_⟩
    · rw [← List.append_assoc, ← hreport]
      exact hreport'
    · intro entry hentry
      rcases List.mem_append.mp hentry with hentry | hentry
      · obtain ⟨heq, hgrammar⟩ := hhere entry hentry
        exact ⟨by simp [heq], by rw [heq]; exact hgrammar⟩
      · exact ⟨.tail _ (hlater entry hentry).1, (hlater entry hentry).2⟩
    · rw [List.filter_append, ← List.append_assoc, ← hloaded, ← hsame]
      exact hloaded'

theorem loaded_loadAll (r : Registry) (ids : List String) (s : Session) :
    (∀ entry ∈ (r.loadAll ids s).1.loaded, (r.grammarLanguage? entry.1).isSome) ∧
      (r.loadAll ids s).2.loaded =
        s.loaded ++ (r.loadAll ids s).1.loaded.filter (fun entry => !s.isLoaded entry.1) := by
  obtain ⟨more, hreport, hmore, hloaded⟩ := r.loaded_loadEach (nodup_distinctIds ids) ⟨[], []⟩ s
  unfold loadAll
  rw [hreport, List.nil_append]
  exact ⟨fun entry hentry => (hmore entry hentry).2, hloaded⟩

theorem loaded_perform (r : Registry) (s : Session) (c : Call) :
    ∃ more, (r.perform s c).loaded = s.loaded ++ more ∧ ∀ entry ∈ more,
      (r.grammarLanguage? entry.1).isSome := by
  cases c with
  | loadAll ids =>
    obtain ⟨hgrammar, hloaded⟩ := r.loaded_loadAll ids s
    exact ⟨_, hloaded, fun entry hentry => hgrammar entry (List.mem_of_mem_filter hentry)⟩
  | load id =>
    refine ⟨_, r.loaded_loadGrammar id s, ?_⟩
    split
    · rename_i hanswer
      split
      · simp
      · rename_i hnew
        simpa using grammarLanguage?_of_ok hanswer (by simpa using hnew)
    · simp

theorem loaded_run (r : Registry) (calls : List Call) (s : Session) :
    ∃ more, (r.run calls s).loaded = s.loaded ++ more ∧ ∀ entry ∈ more,
      (r.grammarLanguage? entry.1).isSome := by
  induction calls generalizing s with
  | nil => exact ⟨[], by simp [run]⟩
  | cons c calls ih =>
    obtain ⟨here, hloaded, hhere⟩ := r.loaded_perform s c
    obtain ⟨later, hloaded', hlater⟩ := ih (r.perform s c)
    refine ⟨here ++ later, ?_, ?_⟩
    · rw [← List.append_assoc, ← hloaded]
      exact hloaded'
    · intro entry hentry
      exact (List.mem_append.mp hentry).elim (hhere entry) (hlater entry)

/-- Every language is under one id. -/
def Distinct (r : Registry) : Prop :=
  ∀ a b l m, r.grammarLanguage? a = some l → r.grammarLanguage? b = some m → l.name = m.name → a = b

theorem distinct_of_names (h : ∀ entry ∈ r.languages, entry.2.name = entry.1) : r.Distinct := by
  intro a b l m hl hm hname
  have ha := h _ (mem_of_lookup (lookup_of_grammarLanguage? hl).1)
  have hb := h _ (mem_of_lookup (lookup_of_grammarLanguage? hm).1)
  exact ha.symm.trans (hname.trans hb)

theorem Distinct.apart (h : r.Distinct) {a b : String} (hne : a ≠ b) : r.Apart a b :=
  ⟨hne, fun l m hl hm hname => hne (h a b l m hl hm hname)⟩

theorem slot_perform (h : r.Distinct) {l : Language} (hl : r.grammarLanguage? id = some l)
    (s : Session) (c : Call) :
    (r.perform s c).ledger.slot id l.name =
      if c.asksFor id then ((s.ledger.slot id l.name).load r l).2 else s.ledger.slot id l.name := by
  cases c with
  | loadAll ids =>
    simp only [perform, Call.asksFor, List.contains_iff_mem]
    exact slot_loadAll (fun a _ hne => h.apart hne) hl s
  | load k =>
    simp only [perform, Call.asksFor, (r.ledger_loadGrammar k s).2]
    by_cases hk : k = id
    · subst hk
      simp [Ledger.slot_load_self hl]
    · simp [hk, Ledger.slot_load_of_apart (h.apart hk) hl]

theorem slot_run (h : r.Distinct) {l : Language} (hl : r.grammarLanguage? id = some l)
    (calls : List Call) :
    (r.run calls .start).ledger.slot id l.name = Slot.after r l (calls.countP (·.asksFor id)) := by
  have hrun :=
    Slot.after_foldl (fun s : Session => s.ledger.slot id l.name) r.perform (·.asksFor id)
    (fun s c => slot_perform h hl s c) (n := 0) (s := .start) rfl calls
  rw [Nat.zero_add] at hrun
  exact hrun

/-- What a registry remembers after any calls: grammars for languages of its table that have one;
those it has stay, whatever is called later; a failure leaves them as they are, also within a
request, which adds just what it reports as loaded. The loader was called once for each attempt on a
language up to the first success, and from then on calls succeed. -/
theorem registry_remembers (r : Registry) (distinct : r.Distinct) (calls : List Call) :
    let s := r.run calls .start
    (∀ id g, s.loaded.lookup id = some g → (r.grammarLanguage? id).isSome) ∧
    (∀ id g, s.loaded.lookup id = some g → ∀ more, (r.run more s).loaded.lookup id = some g) ∧
    (∀ (t : Session) id e, (r.loadGrammar id t).1 = .error e →
      (r.loadGrammar id t).2.loaded = t.loaded ∧
        ∀ report, (r.loadNext id report t).2.loaded = t.loaded) ∧
    (∀ ids, (r.loadAll ids s).2.loaded =
      s.loaded ++ (r.loadAll ids s).1.loaded.filter (fun entry => !s.isLoaded entry.1)) ∧
    ∀ id l, r.grammarLanguage? id = some l →
      s.loads.count l.name = r.attemptsToSuccess l (calls.countP (·.asksFor id)) ∧
      ((r.loadGrammar id s).1.isOk ↔ ∃ k ≤ calls.countP (·.asksFor id), r.succeedsAt l k) := by
  intro s
  refine ⟨?_, ?_, ?_, ?_, ?_⟩
  · intro id g hkept
    obtain ⟨more, hloaded, hmore⟩ := r.loaded_run calls .start
    have hmem := mem_of_lookup hkept
    rw [hloaded] at hmem
    exact hmore _ hmem
  · intro id g hkept more
    obtain ⟨added, hloaded, -⟩ := r.loaded_run more s
    rw [hloaded, List.lookup_append, hkept, Option.some_or]
  · intro t id e h
    exact ⟨loaded_of_error h, loaded_of_loadNext_error h⟩
  · intro ids
    exact (r.loaded_loadAll ids s).2
  · intro id l hl
    have hslot := slot_run distinct hl calls
    have hanswer : (r.loadGrammar id s).1 = ((s.ledger.slot id l.name).load r l).1 := by
      rw [(r.ledger_loadGrammar id s).1, Ledger.load_of_some hl]
    rw [hanswer, hslot]
    exact ⟨(congrArg Slot.loads hslot).trans (Slot.loads_after r l _), Slot.isOk_load_after r l _⟩

/-- A registry whose loader fails at first for one language, and whose compiler fails at first for
it too. -/
def wavering : Registry where
  languages :=
    [("go", .withGrammar "go" "tree-sitter-go" "" []),
      ("lua", .withGrammar "lua" "tree-sitter-lua" "" []),
    ("markdown", .markdown)]
  load := fun l n => if l.name == "go" && n == 0 then .error ⟨"ImportError", "no module"⟩
    else .ok ()
  compile :=
    fun l n => if l.name == "go" && n == 0 then .error ⟨"QueryError", "no query"⟩ else .ok []

theorem wavering_distinct : wavering.Distinct := distinct_of_names (by decide)

/-- The loader fails, then the compiler, then both succeed within a request; the fourth call finds
the grammar. -/
theorem registry_remembers_wavering :
    let calls :=
      [Call.load "go", .loadAll ["lua", "go"], .loadAll ["markdown", "go", "go"], .load "go"]
    wavering.Distinct ∧ (wavering.run calls .start).loads.count "go" = 3 := by
  refine ⟨wavering_distinct, ?_⟩
  obtain ⟨-, -, -, -, hcounts⟩ := registry_remembers wavering wavering_distinct
    [.load "go", .loadAll ["lua", "go"], .loadAll ["markdown", "go", "go"], .load "go"]
  have hgo := (hcounts "go" (.withGrammar "go" "tree-sitter-go" "" []) rfl).1
  exact hgo.trans (by decide)

end SourceOutline.Registry
