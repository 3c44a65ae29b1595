import SourceOutline.Proofs.Extraction.Agreement
import SourceOutline.Proofs.Grammar.History

/-! Extraction over time. Between the start and the end of a session files are outlined alone and in
batches, and the disk changes in between. For the grammar of a language an operation is one call or
none, however many of its files have that language, so the number of operations that need a language
decides how often its loader was called. -/
namespace SourceOutline

namespace Extractor

inductive Operation where
  | file (p : Path)
  | batch (requested : Option Int) (schedule : List Nat) (paths : List Path)
  | write (p : Path) (content : Text.Utf8.Bytes)
  | remove (p : Path)

def Operation.paths : Operation → List Path
  | .file p => [p]
  | .batch _ _ paths => paths
  | .write _ _ | .remove _ => []

instance (x : Extractor) (p : Path) : Decidable (x.Permits p) :=
  decidable_of_iff _ (x.allows_iff_permits p .start)

/-- An operation needs a language when it outlines a path of that language which may be read. -/
def needs (x : Extractor) (l : Language) (op : Operation) : Bool :=
  op.paths.any fun p => x.Permits p && Language.forPath? p == some l

def perform (x : Extractor) (state : Disk × Session) : Operation → Disk × Session
  | .file p => (state.1, (x.outlineFile state.1 p state.2).2)
  | .batch requested schedule paths =>
    (state.1, (x.outlineTogether state.1 requested schedule paths state.2).2)
  | .write p content => (state.1.put p content, state.2)
  | .remove p => (state.1.remove p, state.2)

def performAll (x : Extractor) (ops : List Operation) (state : Disk × Session) : Disk × Session :=
  ops.foldl x.perform state

theorem needs_iff {x : Extractor} {l : Language} {op : Operation} :
    x.needs l op ↔ ∃ p ∈ op.paths, x.Permits p ∧ Language.forPath? p = some l := by
  simp [needs]

theorem eq_of_name_eq {l m : Language} (hl : l ∈ Language.table) (hm : m ∈ Language.table)
    (hname : l.name = m.name) : l = m := by
  have hlookup := lookup_name table_names_nodup hl
  rw [hname, lookup_name table_names_nodup hm] at hlookup
  exact (Option.some.inj hlookup).symm

theorem forPath?_eq_of_name {l : Language} {p : Path} (hl : l ∈ Language.table)
    (h : (Language.forPath? p).map (·.name) = some l.name) : Language.forPath? p = some l := by
  obtain ⟨m, hm, hname⟩ := Option.map_eq_some_iff.mp h
  rw [hm, eq_of_name_eq (mem_table_of_forPath? hm) hl hname]

theorem ledger_outlineTogether (x : Extractor) (d : Disk) (requested : Option Int)
    (schedule : List Nat) (paths : List Path) (s : Session) :
    ∃ t : Session, t.ledger = s.ledger ∧
      (x.outlineTogether d requested schedule paths s).2.ledger =
        (x.registry.loadAll (neededIds (x.admitted paths s)) t).2.ledger := by
  refine ⟨(x.allowedOf paths.eraseDups { s with batch := s.batch.set none }).2, ?_, ?_⟩
  · rw [ledger_allowedOf]
    rfl
  · unfold outlineTogether outlineAll admitted
    dsimp only
    rw [← x.ledger_outlineFiles d _ _ schedule _ (x.registry.loadAll _ _).2]
    rfl

section WholeTable

variable {x : Extractor} (htable : x.registry.languages = Language.byName) {l : Language}

include htable

theorem distinct_of_byName : x.registry.Distinct := by
  apply Registry.distinct_of_names
  intro entry hentry
  rw [htable] at hentry
  obtain ⟨l, -, rfl⟩ := List.mem_map.mp hentry
  rfl

theorem slot_file (hl : l ∈ Language.table) (hgrammar : l.byHeadings = false) (d : Disk) (p : Path)
    (s : Session) :
    (x.outlineFile d p s).2.ledger.slot l.name l.name =
      if x.needs l (.file p) then ((s.ledger.slot l.name l.name).load x.registry l).2
      else s.ledger.slot l.name l.name := by
  by_cases hpermits : x.Permits p
  · rw [ledger_outlineFile hpermits]
    cases hm : Language.forPath? p with
    | none => simp [needs, Operation.paths, hm]
    | some m =>
      cases hheadings : m.byHeadings with
      | true =>
        have hne : m ≠ l := fun heq => by simp [heq, hgrammar] at hheadings
        simp [needs, Operation.paths, hm, hheadings, hne]
      | false =>
        have hcall :=
          Registry.slot_perform (distinct_of_byName htable)
            (grammarLanguage?_name htable hl hgrammar) s
          (.load m.name)
        have hname : (m.name = l.name) ↔ m = l :=
          ⟨eq_of_name_eq (mem_table_of_forPath? hm) hl, congrArg Language.name⟩
        simp only [Registry.perform, (x.registry.ledger_loadGrammar m.name s).2,
          Registry.Call.asksFor, beq_iff_eq, hname] at hcall
        simpa [needs, Operation.paths, hm, hheadings, hpermits] using hcall
  · rw [ledger_outlineFile_of_not_permits hpermits]
    simp [needs, Operation.paths, hpermits]

theorem slot_batch (hl : l ∈ Language.table) (hgrammar : l.byHeadings = false) (d : Disk)
    (requested : Option Int) (schedule : List Nat) (paths : List Path) (s : Session) :
    (x.outlineTogether d requested schedule paths s).2.ledger.slot l.name l.name =
      if x.needs l (.batch requested schedule paths) then
        ((s.ledger.slot l.name l.name).load x.registry l).2
      else s.ledger.slot l.name l.name := by
  obtain ⟨t, hledger, hbatch⟩ := x.ledger_outlineTogether d requested schedule paths s
  have hneeds : l.name ∈ neededIds (x.admitted paths s) ↔
      x.needs l (.batch requested schedule paths) := by
    rw [needs_iff]
    constructor
    · intro hname
      obtain ⟨p, hp, m, hm, -, heq⟩ := exists_of_mem_neededIds hname
      obtain ⟨hmem, hpermits⟩ := mem_admitted.mp hp
      exact ⟨p, hmem, hpermits,
        hm.trans (congrArg some (eq_of_name_eq (mem_table_of_forPath? hm) hl heq))⟩
    · rintro ⟨p, hp, hpermits, hm⟩
      exact name_mem_neededIds (mem_admitted.mpr ⟨hp, hpermits⟩) hm hgrammar
  rw [hbatch, Registry.slot_loadAll (fun a _ hne => (distinct_of_byName htable).apart hne)
    (grammarLanguage?_name htable hl hgrammar), hledger]
  simp only [hneeds]

theorem slot_performAll (hl : l ∈ Language.table) (hgrammar : l.byHeadings = false) (d : Disk)
    (ops : List Operation) :
    (x.performAll ops (d, .start)).2.ledger.slot l.name l.name =
      Slot.after x.registry l (ops.countP (x.needs l)) := by
  have hstep : ∀ (state : Disk × Session) op, (x.perform state op).2.ledger.slot l.name l.name =
      if x.needs l op then ((state.2.ledger.slot l.name l.name).load x.registry l).2
      else state.2.ledger.slot l.name l.name := by
    intro state op
    cases op with
    | file p => exact slot_file htable hl hgrammar state.1 p state.2
    | batch requested schedule paths =>
      exact slot_batch htable hl hgrammar state.1 requested schedule paths state.2
    | write p content => simp [perform, needs, Operation.paths]
    | remove p => simp [perform, needs, Operation.paths]
  have hrun := Slot.after_foldl (fun state : Disk × Session => state.2.ledger.slot l.name l.name)
    x.perform (x.needs l)
    hstep (n := 0) (s := (d, .start)) rfl ops
  rw [Nat.zero_add] at hrun
  exact hrun

end WholeTable

/-- In any history of operations the loader of a language was called once for each operation that
needed the language, up to the first whose loading succeeded. A batch in which a language fails
gives that one error to all its files. The others are not affected: every file has an outcome that
it has alone in a session with the same ledger, and the very outcome that it has alone right away
where parser and cursor do not heed the number of their calls. -/
theorem grammars_loaded_once_per_need (x : Extractor)
    (htable : x.registry.languages = Language.byName) (d : Disk) (ops : List Operation)
    (l : Language) (hl : l ∈ Language.table) (hgrammar : l.byHeadings = false) :
    let state := x.performAll ops (d, .start)
    state.2.loads.count l.name = x.registry.attemptsToSuccess l (ops.countP (x.needs l)) ∧
    ((x.registry.loadGrammar l.name state.2).1.isOk ↔ ∃ k ≤ ops.countP (x.needs l),
      x.registry.succeedsAt l k) ∧
    ∀ requested schedule paths e, (x.registry.loadGrammar l.name state.2).1 = .error e →
      let outcomes := (x.outlineTogether state.1 requested schedule paths state.2).1
      (∀ p, p ∈ outcomes.map (·.1) ↔ p ∈ paths ∧ x.Permits p) ∧
      (∀ p o, (p, o) ∈ outcomes → Language.forPath? p = some l → o = .error e) ∧
      ∀ p o, (p, o) ∈ outcomes →
        (∃ t : Session, t.ledger = state.2.ledger ∧ (x.outlineFile state.1 p t).1 = some o) ∧
        (x.Steady → (x.outlineFile state.1 p state.2).1 = some o) := by
  intro state
  have hslot := slot_performAll htable hl hgrammar d ops
  have hanswer : (x.registry.loadGrammar l.name state.2).1 =
      ((state.2.ledger.slot l.name l.name).load x.registry l).1 := by
    rw [(x.registry.ledger_loadGrammar l.name state.2).1,
      Ledger.load_of_some (grammarLanguage?_name htable hl hgrammar)]
  refine ⟨(congrArg Slot.loads hslot).trans (Slot.loads_after x.registry l _), ?_, ?_⟩
  · rw [hanswer, hslot]
    exact Slot.isOk_load_after x.registry l _
  · intro requested schedule paths e hfails outcomes
    obtain ⟨hkeys, hends⟩ :=
      outlineTogether_spec (covers_of_byName htable paths) state.1 state.2 requested schedule
    refine ⟨fun p => ?_, ?_, ?_⟩
    · rw [hkeys, mem_admitted]
    · intro p o hentry hp
      have hpermits := (mem_admitted.mp (hkeys ▸ List.mem_map.mpr ⟨(p, o), hentry, rfl⟩)).2
      obtain ⟨t, hledger, houtcome⟩ := hends p o hentry
      have hfails' : (x.registry.loadGrammar l.name t).1 = .error e := by
        rw [(x.registry.ledger_loadGrammar l.name t).1,
          hledger, ← (x.registry.ledger_loadGrammar l.name state.2).1,
          hfails]
      rw [outlineFile_of_permits hpermits, hp] at houtcome
      simp only [hgrammar, Bool.false_eq_true, if_false] at houtcome
      generalize x.registry.loadGrammar l.name t = result at hfails' houtcome
      obtain ⟨answer, after⟩ := result
      cases hfails'
      exact (Option.some.inj houtcome).symm
    · intro p o hentry
      obtain ⟨t, hledger, houtcome⟩ := hends p o hentry
      exact ⟨⟨t, hledger, houtcome⟩, fun hx => (hx.outlineFile hledger).symm.trans houtcome⟩

/-- The first batch fails to load, the single file loads, and the second batch finds the grammar;
the disk does not matter. -/
theorem grammars_loaded_once_per_need_reluctant :
    let go := Language.withGrammar "go" "tree-sitter-go" DefinitionQuery.go ["go"]
    let p := Path.ofString "c.go"
    let ops : List Operation :=
      [.write p [], .batch none [] [p, .ofString "./c.go"], .remove p, .file p,
      .batch (some 2) [1, 0] [p]]
    reluctant.registry.languages = Language.byName ∧ go ∈ Language.table ∧ go.byHeadings = false ∧
      (reluctant.performAll ops (.empty [], .start)).2.loads.count "go" = 2 ∧
      ∀ o, (p, o) ∈ (reluctant.outlineTogether (.empty []) none [] [p] .start).1 →
        o = .error (.grammarLoad "go" "ImportError: no module") := by
  intro go p ops
  have hgo : go ∈ Language.table := by simp [go, Language.table]
  have hp : Language.forPath? p = some go := forPath?_eq_of_name hgo (by decide +kernel)
  have hpermits : reluctant.Permits p := by decide +kernel
  refine ⟨rfl, hgo, rfl, ?_, ?_⟩
  · have hneeds : ops.countP (reluctant.needs go) = 3 := by
      simp [ops, needs, Operation.paths, hp, hpermits]
    have hcount := (grammars_loaded_once_per_need reluctant rfl (.empty []) ops go hgo rfl).1
    rw [hneeds] at hcount
    exact hcount.trans (by decide +kernel)
  · have hfails : (reluctant.registry.loadGrammar go.name .start).1 =
        .error (.grammarLoad "go" "ImportError: no module") := by
      rw [(reluctant.registry.ledger_loadGrammar go.name .start).1,
        Ledger.load_of_some (grammarLanguage?_name rfl hgo rfl)]
      rfl
    intro o ho
    obtain ⟨-, -, hbatch⟩ := grammars_loaded_once_per_need reluctant rfl (.empty []) [] go hgo rfl
    simp only [performAll, List.foldl_nil] at hbatch
    exact (hbatch none [] [p] _ hfails).2.1 p o ho hp

end Extractor

end SourceOutline
