import SourceOutline.Proofs.Extraction.Sequence

/-! Paths that are vetoed. A veto takes effect before anything else is done for a path, and all it
leaves behind is an event in the log. No later stage looks at the log, so two sessions that differ
in nothing else go on alike, stage by stage; and of a disk they see no more than the files that may
be read. -/
namespace SourceOutline

/-- Sessions that differ at most in what was told: in the log and in the ids of batches. -/
def Session.Alike (s t : Session) : Prop := ∃ batch log, t = { s with batch := batch, log := log }

def EndAlike {α : Type} (a b : α × Session) : Prop := a.1 = b.1 ∧ a.2.Alike b.2

namespace Session.Alike

variable {s t u : Session}

theorem refl (s : Session) : s.Alike s := ⟨s.batch, s.log, rfl⟩

theorem symm : s.Alike t → t.Alike s := by
  rintro ⟨batch, log, rfl⟩
  exact ⟨s.batch, s.log, rfl⟩

theorem trans : s.Alike t → t.Alike u → s.Alike u := by
  rintro ⟨_, _, rfl⟩ ⟨batch, log, rfl⟩
  exact ⟨batch, log, rfl⟩

theorem ledger : s.Alike t → s.ledger = t.ledger := by
  rintro ⟨batch, log, rfl⟩
  rfl

theorem emit (s : Session) (name : String) (level : Level) (fields : List (String × Value)) :
    s.Alike (s.emit name level fields) := ⟨_, _, rfl⟩

theorem emit_emit (h : s.Alike t) (name : String) (level : Level) (fields : List (String × Value)) :
    (s.emit name level fields).Alike (t.emit name level fields) :=
  (emit s name level fields).symm.trans (h.trans (emit t name level fields))

end Session.Alike

namespace Registry

variable (r : Registry) {s t : Session}

theorem loadAnew_alike (l : Language) (h : s.Alike t) :
    EndAlike (r.loadAnew l s) (r.loadAnew l t) := by
  obtain ⟨batch, log, rfl⟩ := h
  unfold loadAnew
  dsimp only
  split
  · exact ⟨rfl, _, _, rfl⟩
  · split <;> exact ⟨rfl, _, _, rfl⟩

theorem loadGrammar_alike (id : String) (h : s.Alike t) :
    EndAlike (r.loadGrammar id s) (r.loadGrammar id t) := by
  have hanew := fun l => r.loadAnew_alike l h
  have hloaded : t.loaded = s.loaded := by
    obtain ⟨batch, log, rfl⟩ := h
    rfl
  unfold loadGrammar
  rw [hloaded]
  split
  · exact ⟨rfl, h⟩
  · split
    · exact ⟨rfl, h⟩
    · rename_i l _
      obtain ⟨hanswer, hafter⟩ := hanew l
      generalize r.loadAnew l s = ours at hanswer hafter ⊢
      generalize r.loadAnew l t = theirs at hanswer hafter ⊢
      obtain ⟨answer, after⟩ := ours
      obtain ⟨_, after'⟩ := theirs
      cases hanswer
      obtain ⟨batch, log, rfl⟩ := hafter
      cases answer <;> exact ⟨rfl, _, _, rfl⟩

theorem loadNext_alike (id : String) (report : LoadReport) (h : s.Alike t) :
    EndAlike (r.loadNext id report s) (r.loadNext id report t) := by
  obtain ⟨hanswer, hafter⟩ := r.loadGrammar_alike id h
  unfold loadNext
  split
  · exact ⟨rfl, h.emit_emit _ _ _⟩
  · split
    · exact ⟨rfl, h.emit_emit _ _ _⟩
    · generalize r.loadGrammar id s = ours at hanswer hafter ⊢
      generalize r.loadGrammar id t = theirs at hanswer hafter ⊢
      obtain ⟨answer, after⟩ := ours
      obtain ⟨_, after'⟩ := theirs
      cases hanswer
      cases answer with
      | ok g => exact ⟨rfl, hafter⟩
      | error e => exact ⟨rfl, hafter.emit_emit _ _ _⟩

theorem loadEach_alike (ids : List String) (report : LoadReport) (h : s.Alike t) :
    EndAlike (r.loadEach ids report s) (r.loadEach ids report t) := by
  induction ids generalizing report s t with
  | nil => exact ⟨rfl, h⟩
  | cons id ids ih =>
    obtain ⟨hreport, hafter⟩ := r.loadNext_alike id report h
    have hrest := ih (r.loadNext id report s).1 hafter
    rw [loadEach, loadEach]
    dsimp only
    rw [← hreport]
    exact hrest

end Registry

namespace Extractor

variable (x : Extractor) {d d' : Disk} (report : Registry.LoadReport) {p : Path} (l : Language)
  {s t : Session}

theorem fail_alike (e : OutlineError) (h : s.Alike t) : EndAlike (fail p e s) (fail p e t) := by
  unfold fail
  cases e.code <;> exact ⟨rfl, h.emit_emit _ _ _⟩

theorem settle_alike (result : Except Trouble (Option (List Definition))) (h : s.Alike t) :
    EndAlike (settle p l result s) (settle p l result t) := by
  cases result with
  | ok ds => exact ⟨rfl, h.emit_emit _ _ _⟩
  | error trouble =>
    cases trouble with
    | known e => exact fail_alike e h
    | crash f => exact fail_alike _ (h.emit_emit _ _ _)

theorem parseFile_alike (g : LoadedGrammar) (content : Text.Utf8.Bytes) (h : s.Alike t) :
    EndAlike (x.parseFile p g content s) (x.parseFile p g content t) := by
  obtain ⟨batch, log, rfl⟩ := h
  unfold parseFile parseSource
  dsimp only
  cases Parsed.ofOutcome g.language (x.parse g.language (s.parses.count g.language) content) with
  | error e => exact ⟨rfl, _, _, rfl⟩
  | ok parsed =>
    dsimp only
    split <;> exact ⟨rfl, _, _, rfl⟩

theorem searchTree_alike (language : String) (q : Query) (tree : SyntaxTree) (h : s.Alike t) :
    EndAlike (x.searchTree language q tree s) (x.searchTree language q tree t) := by
  obtain ⟨batch, log, rfl⟩ := h
  exact ⟨rfl, _, _, rfl⟩

theorem grammarCaptures_alike (g : LoadedGrammar) (content : Text.Utf8.Bytes) (h : s.Alike t) :
    EndAlike (x.grammarCaptures p l g content s) (x.grammarCaptures p l g content t) := by
  obtain ⟨hanswer, hafter⟩ := x.parseFile_alike (p := p) g content h
  unfold grammarCaptures
  generalize x.parseFile p g content s = ours at hanswer hafter ⊢
  generalize x.parseFile p g content t = theirs at hanswer hafter ⊢
  obtain ⟨answer, after⟩ := ours
  obtain ⟨_, after'⟩ := theirs
  cases hanswer
  cases answer with
  | error e => exact ⟨rfl, hafter⟩
  | ok parsed => exact x.searchTree_alike l.name g.query parsed.tree hafter

theorem capturesIn_alike (g : Option LoadedGrammar) (content : Text.Utf8.Bytes) (h : s.Alike t) :
    EndAlike (x.capturesIn p l g content s) (x.capturesIn p l g content t) := by
  unfold capturesIn
  split
  · exact x.grammarCaptures_alike l _ content h
  · exact ⟨rfl, h⟩

theorem settle_definitionsOf_alike (content : Text.Utf8.Bytes)
    {a b : Except OutlineError (List Capture) × Session} (h : EndAlike a b) :
    EndAlike (settle p l (x.definitionsOf content a.1) a.2)
      (settle p l (x.definitionsOf content b.1) b.2) := by
  rw [h.1]
  exact settle_alike l _ h.2

section Reads

variable (hread : d.read p = d'.read p)

include hread

theorem outlineWith_alike (g : Option LoadedGrammar) (h : s.Alike t) :
    EndAlike (x.outlineWith d p l g s) (x.outlineWith d' p l g t) := by
  unfold outlineWith definitionsIn
  rw [← hread]
  cases d.read p with
  | error e => exact settle_alike l _ h
  | ok content => exact x.settle_definitionsOf_alike l content (x.capturesIn_alike l g content h)

theorem outlineIn_alike (h : s.Alike t) :
    EndAlike (x.outlineIn d report p s) (x.outlineIn d' report p t) := by
  unfold outlineIn
  cases assignment report p with
  | error e => exact fail_alike e h
  | ok assigned => exact x.outlineWith_alike assigned.1 hread assigned.2 h

theorem proceed_alike (progress : Progress) (h : s.Alike t) :
    EndAlike (x.proceed d report p progress s) (x.proceed d' report p progress t) := by
  have hending : ∀ {a b : Outcome × Session}, EndAlike a b →
      EndAlike (Progress.ending a) (Progress.ending b) :=
    fun hends => ⟨congrArg Progress.ended hends.1, hends.2⟩
  cases progress with
  | planned =>
    simp only [proceed]
    cases assignment report p with
    | error e => exact hending (fail_alike e h)
    | ok assigned => exact ⟨rfl, h⟩
  | reading l g =>
    simp only [proceed, ← hread]
    cases d.read p with
    | error e => exact hending (settle_alike l _ h)
    | ok content => cases l.byHeadings <;> cases g <;> exact ⟨rfl, h⟩
  | parsing l g content =>
    obtain ⟨hanswer, hafter⟩ := x.parseFile_alike (p := p) g content h
    simp only [proceed]
    generalize x.parseFile p g content s = ours at hanswer hafter ⊢
    generalize x.parseFile p g content t = theirs at hanswer hafter ⊢
    obtain ⟨answer, after⟩ := ours
    obtain ⟨_, after'⟩ := theirs
    cases hanswer
    cases answer with
    | error e => exact hending (fail_alike e hafter)
    | ok parsed => exact ⟨rfl, hafter⟩
  | searching l g content tree =>
    obtain ⟨hanswer, hafter⟩ := x.searchTree_alike l.name g.query tree h
    simp only [proceed]
    generalize x.searchTree l.name g.query tree s = ours at hanswer hafter ⊢
    generalize x.searchTree l.name g.query tree t = theirs at hanswer hafter ⊢
    obtain ⟨answer, after⟩ := ours
    obtain ⟨_, after'⟩ := theirs
    cases hanswer
    cases answer with
    | error e => exact hending (fail_alike e hafter)
    | ok captures => exact ⟨rfl, hafter⟩
  | listing l content captures => exact hending (settle_alike l _ h)
  | ended outcome => exact ⟨rfl, h⟩

theorem finish_alike (progress : Progress) (h : s.Alike t) :
    EndAlike (x.finish d report p progress s) (x.finish d' report p progress t) := by
  cases progress with
  | planned => exact x.outlineIn_alike report hread h
  | reading l g => exact x.outlineWith_alike l hread g h
  | parsing l g content =>
    exact x.settle_definitionsOf_alike l content (x.grammarCaptures_alike l g content h)
  | searching l g content tree =>
    exact x.settle_definitionsOf_alike l content (x.searchTree_alike l.name g.query tree h)
  | listing l content captures => exact settle_alike l _ h
  | ended outcome => exact ⟨rfl, h⟩

end Reads

end Extractor

namespace Pool

variable (x : Extractor) {d d' : Disk} (report : Registry.LoadReport) (workers : Int)

/-- Pools at the same point, in sessions that are alike, whose files read the same on two disks. -/
structure Alike (d d' : Disk) (a b : Pool) : Prop where
  jobs : a.jobs = b.jobs
  session : a.session.Alike b.session
  reads : ∀ job ∈ a.jobs, d.read job.path = d'.read job.path

theorem advance_alike {a b : Pool} (h : Alike d d' a b) (i : Nat) :
    Alike d d' (a.advance x d report workers i) (b.advance x d' report workers i) := by
  obtain ⟨jobs, s⟩ := a
  obtain ⟨_, t⟩ := b
  obtain ⟨rfl, hsession, hreads⟩ := h
  unfold advance
  cases hjob : jobs[i]? with
  | none => exact ⟨rfl, hsession, hreads⟩
  | some job =>
    have hread := hreads job (List.mem_of_getElem? hjob)
    obtain ⟨hprogress, hafter⟩ := x.proceed_alike report hread job.progress hsession
    dsimp only
    have hmay : mayProceed workers ⟨jobs, t⟩ i job = mayProceed workers ⟨jobs, s⟩ i job := rfl
    rw [hmay]
    split
    · refine ⟨by simp only [hprogress], hafter, fun other hother => ?_⟩
      rcases List.mem_or_eq_of_mem_set hother with hother | rfl
      · exact hreads other hother
      · exact hread
    · exact ⟨rfl, hsession, hreads⟩

theorem run_alike (schedule : List Nat) {a b : Pool} (h : Alike d d' a b) :
    Alike d d' (a.run x d report workers schedule) (b.run x d' report workers schedule) := by
  induction schedule generalizing a b with
  | nil => exact h
  | cons i schedule ih => exact ih (advance_alike x report workers h i)

theorem outcomes_alike (jobs : List Job) (hreads : ∀ job ∈ jobs, d.read job.path = d'.read job.path)
    {s t : Session} (h : s.Alike t) :
    EndAlike (outcomes x d report jobs s) (outcomes x d' report jobs t) := by
  induction jobs generalizing s t with
  | nil => exact ⟨rfl, h⟩
  | cons job jobs ih =>
    obtain ⟨houtcome, hafter⟩ := x.finish_alike report (hreads job (.head _)) job.progress h
    obtain ⟨hrest, hend⟩ := ih (fun other hother => hreads other (.tail _ hother)) hafter
    refine ⟨?_, hend⟩
    simp only [outcomes, houtcome, hrest]

end Pool

theorem filter_eraseDups {α : Type} [BEq α] [LawfulBEq α] (keep : α → Bool) (l : List α) :
    (l.filter keep).eraseDups = l.eraseDups.filter keep := by
  match l with
  | [] => rfl
  | a :: l =>
    have hrest := filter_eraseDups keep (l.filter fun b => !b == a)
    rw [List.eraseDups_cons, List.filter_cons, List.filter_cons, ← hrest]
    split
    · rw [List.eraseDups_cons, List.filter_comm]
    · -- What is not kept was not among the kept elements either.
      rename_i hdropped
      congr 1
      rw [List.filter_filter]
      refine List.filter_congr fun b _ => ?_
      by_cases hb : b = a
      · simp [hb, hdropped]
      · simp [hb]
termination_by l.length
decreasing_by exact Nat.lt_succ_of_le (List.length_filter_le _ _)

namespace Extractor

variable (x : Extractor) {d d' : Disk} {s t : Session}

theorem allows_alike (p : Path) (s : Session) : s.Alike (x.allows p s).2 := by
  unfold allows
  split
  · exact .refl s
  · split
    · exact .emit s _ _ _
    · exact .refl s
    · exact .emit s _ _ _

theorem allowedOf_eq (paths : List Path) (s : Session) :
    (x.allowedOf paths s).1 = paths.filter (x.Permits ·) ∧ s.Alike (x.allowedOf paths s).2 := by
  induction paths generalizing s with
  | nil => exact ⟨rfl, .refl s⟩
  | cons p paths ih =>
    obtain ⟨hrest, hafter⟩ := ih (x.allows p s).2
    have hallows := x.allows_iff_permits p s
    refine ⟨?_, (x.allows_alike p s).trans hafter⟩
    simp only [allowedOf, hrest, List.filter_cons, decide_eq_true_eq, hallows]

theorem outlineFiles_alike (report : Registry.LoadReport) (workers : Int) (schedule : List Nat)
    {paths : List Path} (hreads : ∀ p ∈ paths, d.read p = d'.read p) (h : s.Alike t) :
    EndAlike (x.outlineFiles d report workers schedule paths s)
      (x.outlineFiles d' report workers schedule paths t) := by
  have hstart : Pool.Alike d d' (Pool.start paths s) (Pool.start paths t) := by
    refine ⟨rfl, h, fun job hjob => ?_⟩
    obtain ⟨p, hp, rfl⟩ := List.mem_map.mp hjob
    exact hreads p hp
  unfold outlineFiles
  dsimp only
  split
  · exact Pool.outcomes_alike x report _ hstart.reads h
  · obtain ⟨hjobs, hsession, hreads'⟩ := Pool.run_alike x report workers schedule hstart
    rw [← hjobs]
    exact Pool.outcomes_alike x report _ hreads' hsession

theorem Steady.fst_outlineFiles {x : Extractor} (hx : x.Steady) (report : Registry.LoadReport)
    (workers : Int) (schedule : List Nat) (paths : List Path) (s t : Session) :
    (x.outlineFiles d report workers schedule paths s).1 =
      paths.map fun p => (p, (x.outlineIn d report p t).1) := by
  obtain ⟨hkeys, hends⟩ := x.outlineFiles_spec d report workers schedule paths s
  have hsteady : ∀ p u, (x.outlineIn d report p u).1 = (x.outlineIn d report p t).1 := by
    intro p u
    unfold outlineIn
    cases assignment report p with
    | error e => rfl
    | ok assigned => exact hx.outlineWith assigned.1 assigned.2 u t
  generalize (x.outlineFiles d report workers schedule paths s).1 = ended at hkeys hends ⊢
  subst hkeys
  rw [List.map_map]
  refine (List.map_id _).symm.trans (List.map_congr_left fun entry hentry => ?_)
  obtain ⟨u, houtcome⟩ := hends entry.1 entry.2 hentry
  exact Prod.ext rfl (houtcome.trans (hsteady entry.1 u))

/-- A batch once its paths are checked: the grammars are loaded, then the files are worked on. -/
def outlineAllowed (x : Extractor) (d : Disk) (requested : Option Int) (schedule : List Nat)
    (allowed : List Path) (s : Session) : List (Path × Outcome) × Session :=
  let (report, s) := x.registry.loadAll (neededIds allowed) s
  x.outlineFiles d report (x.workerCount requested allowed.length) schedule allowed s

theorem outlineTogether_endAlike (d : Disk) (requested : Option Int) (schedule : List Nat)
    (paths : List Path) (s : Session) :
    ∃ after, s.Alike after ∧ EndAlike (x.outlineTogether d requested schedule paths s)
      (x.outlineAllowed d requested schedule (paths.eraseDups.filter (x.Permits ·)) after) := by
  obtain ⟨hallowed, hafter⟩ := x.allowedOf_eq paths.eraseDups { s with batch := s.batch.set none }
  refine ⟨(x.allowedOf paths.eraseDups { s with batch := s.batch.set none }).2,
    .trans ⟨_, _, rfl⟩ hafter, ?_⟩
  unfold outlineTogether outlineAll outlineAllowed
  dsimp only
  rw [hallowed]
  exact ⟨rfl, _, _, rfl⟩

theorem outlineAllowed_alike (requested : Option Int) {schedule schedule' : List Nat}
    {allowed : List Path} (hreads : ∀ p ∈ allowed, d.read p = d'.read p)
    (hsame : schedule = schedule' ∨ x.Steady) (h : s.Alike t) :
    (x.outlineAllowed d requested schedule allowed s).1 =
      (x.outlineAllowed d' requested schedule' allowed t).1 := by
  obtain ⟨hreport, hafter⟩ :=
    x.registry.loadEach_alike (Registry.distinctIds (neededIds allowed)) ⟨[], []⟩ h
  unfold outlineAllowed Registry.loadAll
  dsimp only
  rw [← hreport]
  rcases hsame with rfl | hx
  · exact (x.outlineFiles_alike _ _ schedule hreads hafter).1
  · rw [hx.fst_outlineFiles _ _ schedule allowed _ s, hx.fst_outlineFiles _ _ schedule' allowed _ s]
    refine List.map_congr_left fun p hp => ?_
    rw [(x.outlineIn_alike _ (hreads p hp) (.refl s)).1]

theorem ledger_outlineAllowed (requested : Option Int) (schedule schedule' : List Nat)
    (allowed : List Path) (h : s.Alike t) :
    (x.outlineAllowed d requested schedule allowed s).2.ledger =
      (x.outlineAllowed d' requested schedule' allowed t).2.ledger := by
  obtain ⟨-, hafter⟩ :=
    x.registry.loadEach_alike (Registry.distinctIds (neededIds allowed)) ⟨[], []⟩ h
  unfold outlineAllowed Registry.loadAll
  dsimp only
  rw [ledger_outlineFiles, ledger_outlineFiles, hafter.ledger]

/-- Vetoed paths have no influence. A batch ends as the batch of its permitted paths does on any
disk on which these read the same: with the same grammars, calls of loader and compiler, and, unless
parser or cursor heed the order of the work and that order differs, the same outcomes. A path that
is vetoed, be it by a check that faults, is not among them. -/
theorem vetoed_paths_without_influence (x : Extractor) (d d' : Disk) (paths : List Path)
    (s : Session) (requested : Option Int) (schedule schedule' : List Nat)
    (hreads : ∀ p ∈ paths, x.Permits p → d.read p = d'.read p) :
    let whole := x.outlineTogether d requested schedule paths s
    let only := x.outlineTogether d' requested schedule' (paths.filter (x.Permits ·)) s
    (schedule = schedule' ∨ x.Steady → whole.1 = only.1) ∧ whole.2.ledger = only.2.ledger ∧
      ∀ p, p ∈ whole.1.map (·.1) ↔ p ∈ paths ∧ x.Permits p := by
  intro whole only
  obtain ⟨after, hafter, houtcomes, hsession⟩ :=
    x.outlineTogether_endAlike d requested schedule paths s
  obtain ⟨after', hafter', houtcomes', hsession'⟩ :=
    x.outlineTogether_endAlike d' requested schedule' (paths.filter (x.Permits ·)) s
  rw [filter_eraseDups, List.filter_filter] at houtcomes' hsession'
  simp only [Bool.and_self] at houtcomes' hsession'
  have halike : after.Alike after' := hafter.symm.trans hafter'
  have hread : ∀ p ∈ paths.eraseDups.filter (x.Permits ·), d.read p = d'.read p := by
    intro p hp
    obtain ⟨hmem, hpermits⟩ := List.mem_filter.mp hp
    exact hreads p (List.mem_eraseDups.mp hmem) (of_decide_eq_true hpermits)
  refine ⟨fun hsame => ?_, ?_, fun p => ?_⟩
  · calc whole.1
        = (x.outlineAllowed d requested schedule (paths.eraseDups.filter (x.Permits ·)) after).1 :=
          houtcomes
      _ = (x.outlineAllowed d' requested schedule' (paths.eraseDups.filter (x.Permits ·))
        after').1 :=
          x.outlineAllowed_alike requested hread hsame halike
      _ = only.1 := houtcomes'.symm
  · calc whole.2.ledger
        = (x.outlineAllowed d requested schedule (paths.eraseDups.filter (x.Permits ·))
          after).2.ledger := hsession.ledger
      _ = (x.outlineAllowed d' requested schedule' (paths.eraseDups.filter (x.Permits ·))
        after').2.ledger :=
          x.ledger_outlineAllowed requested schedule schedule' _ halike
      _ = only.2.ledger := hsession'.ledger.symm
  · have hkeys : whole.1.map (·.1) = paths.eraseDups.filter (x.Permits ·) := by
      rw [houtcomes]
      exact (x.outlineFiles_spec d _ _ schedule _ _).1
    rw [hkeys, List.mem_filter, List.mem_eraseDups, decide_eq_true_eq]

def guarded : Extractor :=
  { reluctant with
    access :=
      some fun p => if p.name == "secret.py" then .error ⟨"OSError", "no answer"⟩ else .ok true }

/-- The only file in its language is kept back by a fault; whether it exists makes no difference. -/
theorem vetoed_paths_without_influence_guarded :
    let secret := Path.ofString "secret.py"
    let paths := [secret, .ofString "b.go", .ofString "a.md"]
    let d := (Disk.empty []).put secret [0x78]
    let whole := guarded.outlineTogether d (some 2) [1, 0] paths .start
    let only :=
      guarded.outlineTogether (.empty []) (some 2) [0, 1] (paths.filter (guarded.Permits ·)) .start
    (∀ p ∈ paths, guarded.Permits p → d.read p = (Disk.empty []).read p) ∧
      d.read secret ≠ (Disk.empty []).read secret ∧ whole.1 = only.1 ∧
        whole.2.ledger = only.2.ledger ∧
      secret ∉ whole.1.map (·.1) := by
  intro secret paths d whole only
  have hreads : ∀ p ∈ paths, guarded.Permits p → d.read p = (Disk.empty []).read p := by
    decide +kernel
  have hsteady : guarded.Steady := ⟨fun _ _ _ _ => rfl, fun _ _ _ _ _ => rfl⟩
  obtain ⟨houtcomes, hledger, hkeys⟩ :=
    vetoed_paths_without_influence guarded d (.empty []) paths .start (some 2) [1, 0]
    [0, 1] hreads
  refine ⟨hreads, by decide +kernel, houtcomes (.inr hsteady), hledger, fun hsecret => ?_⟩
  have hpermits := ((hkeys secret).mp hsecret).2
  revert hpermits
  decide +kernel

end Extractor

end SourceOutline
