import SourceOutline.Proofs.Extraction.Frame

/-! Files worked on together. What files share is the session, and all that an outcome takes from it
are the numbers of earlier parses and searches. So every job stays on the way to an outcome that its
file can have alone, whichever jobs go on in between. -/
namespace SourceOutline

namespace Extractor

theorem finish_proceed (x : Extractor) (d : Disk) (report : Registry.LoadReport) (p : Path)
    (progress : Progress) (s later : Session) :
    ∃ t, (x.finish d report p (x.proceed d report p progress s).1 later).1 =
      (x.finish d report p progress t).1 := by
  cases progress with
  | planned =>
    refine ⟨later, ?_⟩
    simp only [proceed, finish, outlineIn]
    cases assignment report p <;> rfl
  | reading l g =>
    refine ⟨later, ?_⟩
    simp only [proceed, finish, outlineWith, definitionsIn]
    cases d.read p with
    | error e => simp only [Progress.ending, fst_settle]
    | ok content =>
      simp only [capturesIn]
      cases l.byHeadings <;> cases g <;> rfl
  | parsing l g content =>
    -- The file was parsed in the earlier session and will be searched in the later one.
    refine ⟨{ later with parses := s.parses }, ?_⟩
    have hparse := x.fst_parseFile p g content s
    simp only [proceed, finish, fst_settle, fst_grammarCaptures]
    generalize x.parseFile p g content s = result at hparse ⊢
    obtain ⟨answer, after⟩ := result
    dsimp only at hparse
    rw [← hparse]
    cases answer with
    | error e => rfl
    | ok parsed => simp only [fst_settle, searchTree, Except.bind]
  | searching l g content tree =>
    refine ⟨{ later with searches := s.searches }, ?_⟩
    simp only [proceed, finish, fst_settle, searchTree]
    cases capturesOfOutcome l.name (x.search l.name (s.searches.count l.name) g.query tree) with
    | error e => rfl
    | ok captures => simp only [fst_settle]
  | listing l content captures =>
    refine ⟨later, ?_⟩
    simp only [proceed, Progress.ending, finish, fst_settle]
  | ended outcome => exact ⟨later, rfl⟩

end Extractor

namespace Pool

section OnCourse

variable {x : Extractor} {d : Disk} {report : Registry.LoadReport}

/-- What is left of a job leads to an outcome that its file has in the batch in some session. -/
def OnCourse (x : Extractor) (d : Disk) (report : Registry.LoadReport) (job : Job) : Prop :=
  ∀ s, ∃ t, (x.finish d report job.path job.progress s).1 = (x.outlineIn d report job.path t).1

theorem onCourse_proceed {job : Job} (h : OnCourse x d report job) (s : Session) :
    OnCourse x d report ⟨job.path, (x.proceed d report job.path job.progress s).1⟩ := by
  intro later
  obtain ⟨t, hrest⟩ := x.finish_proceed d report job.path job.progress s later
  obtain ⟨u, houtcome⟩ := h t
  exact ⟨u, hrest.trans houtcome⟩

theorem onCourse_advance (workers : Int) {pool : Pool} (i : Nat)
    (h : ∀ job ∈ pool.jobs, OnCourse x d report job) :
    (pool.advance x d report workers i).jobs.map (·.path) = pool.jobs.map (·.path) ∧
      ∀ job ∈ (pool.advance x d report workers i).jobs, OnCourse x d report job := by
  unfold advance
  cases hjob : pool.jobs[i]? with
  | none => exact ⟨rfl, h⟩
  | some job =>
    dsimp only
    split
    · constructor
      · apply List.ext_getElem?
        intro k
        rw [List.getElem?_map, List.getElem?_map, List.getElem?_set]
        by_cases hk : i = k
        · subst hk
          have hi := (List.getElem?_eq_some_iff.mp hjob).1
          rw [if_pos rfl, if_pos hi, hjob]
          rfl
        · rw [if_neg hk]
      · intro other hother
        rcases List.mem_or_eq_of_mem_set hother with hother | rfl
        · exact h other hother
        · exact onCourse_proceed (h job (List.mem_of_getElem? hjob)) pool.session
    · exact ⟨rfl, h⟩

theorem onCourse_run (workers : Int) (schedule : List Nat) {pool : Pool}
    (h : ∀ job ∈ pool.jobs, OnCourse x d report job) :
    (pool.run x d report workers schedule).jobs.map (·.path) = pool.jobs.map (·.path) ∧
      ∀ job ∈ (pool.run x d report workers schedule).jobs, OnCourse x d report job := by
  induction schedule generalizing pool with
  | nil => exact ⟨rfl, h⟩
  | cons i schedule ih =>
    obtain ⟨hpaths, hcourse⟩ := onCourse_advance workers i h
    obtain ⟨hpaths', hcourse'⟩ := ih hcourse
    exact ⟨hpaths'.trans hpaths, hcourse'⟩

theorem outcomes_onCourse {jobs : List Job} (h : ∀ job ∈ jobs, OnCourse x d report job)
    (s : Session) :
    (outcomes x d report jobs s).1.map (·.1) = jobs.map (·.path) ∧
      ∀ p o, (p, o) ∈ (outcomes x d report jobs s).1 → ∃ t, o = (x.outlineIn d report p t).1 := by
  induction jobs generalizing s with
  | nil => exact ⟨rfl, by simp [outcomes]⟩
  | cons job jobs ih =>
    obtain ⟨hpaths, hrest⟩ := ih (fun other hother => h other (.tail _ hother))
      (x.finish d report job.path job.progress s).2
    refine ⟨by simp only [outcomes, List.map_cons, hpaths], ?_⟩
    intro p o hentry
    rcases List.mem_cons.mp hentry with heq | hentry
    · cases heq
      exact h job (.head _) s
    · exact hrest p o hentry

end OnCourse

end Pool

theorem Extractor.outlineFiles_spec (x : Extractor) (d : Disk) (report : Registry.LoadReport)
    (workers : Int) (schedule : List Nat) (paths : List Path) (s : Session) :
    (x.outlineFiles d report workers schedule paths s).1.map (·.1) = paths ∧
      ∀ p o, (p, o) ∈ (x.outlineFiles d report workers schedule paths s).1 →
        ∃ t, o = (x.outlineIn d report p t).1 := by
  have hpaths : (Pool.start paths s).jobs.map (·.path) = paths := by
    simp only [Pool.start, List.map_map]
    exact List.map_id paths
  have hstart : ∀ job ∈ (Pool.start paths s).jobs, Pool.OnCourse x d report job := by
    intro job hjob
    obtain ⟨p, -, rfl⟩ := List.mem_map.mp hjob
    exact fun t => ⟨t, rfl⟩
  unfold Extractor.outlineFiles
  dsimp only
  split
  · have hends := Pool.outcomes_onCourse hstart s
    rw [hpaths] at hends
    exact hends
  · obtain ⟨hsame, hcourse⟩ := Pool.onCourse_run workers schedule hstart
    have hends :=
      Pool.outcomes_onCourse hcourse ((Pool.start paths s).run x d report workers schedule).session
    rw [hsame, hpaths] at hends
    exact hends

end SourceOutline
