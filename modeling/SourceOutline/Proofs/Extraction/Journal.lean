import SourceOutline.Proofs.Extraction.Veto
import SourceOutline.Proofs.Path

/-! What the log of a batch tells of its paths. The work on a file ends in one place, and there one
event tells how: what comes before may tell of errors in a tree or of a crash, but of no end. So in
whatever order the files of a batch are worked on, each of them has one event for its end, each
vetoed path one for its veto, and one event at the very end counts them. -/
namespace SourceOutline

def Event.path? (e : Event) : Option String :=
  match e.fields.lookup "path" with
  | some (.text path) => some path
  | _ => none

/-- The events that end the work on a file. -/
def endNames : List String := ["file_extracted", "file_unsupported", "file_extraction_failed"]

def vetoNames : List String := ["file_vetoed", "access_check_failed"]

/-- What counts of an event: its name and its path, where it tells of an end, of a veto or of a
batch. -/
def Event.note? (e : Event) : Option (String × Option String) :=
  if e.name ∈ "batch_extracted" :: endNames ++ vetoNames then some (e.name, e.path?) else none

def isNoteOf (names : List String) (p : Path) (note : String × Option String) : Bool :=
  names.contains note.1 && note.2 == some p.toString

/-- An event under one of the names that tells of a path. -/
def Event.tellsOf (names : List String) (p : Path) (e : Event) : Bool :=
  isNoteOf names p (e.name, e.path?)

section Counts

variable {names : List String} {notes : List (String × Option String)}

theorem countP_tellsOf (hnames : names ⊆ "batch_extracted" :: endNames ++ vetoNames)
    (events : List Event) (p : Path) :
    events.countP (·.tellsOf names p) = (events.filterMap Event.note?).countP
      (isNoteOf names p) := by
  rw [List.countP_filterMap]
  refine List.countP_congr fun e _ => ?_
  unfold Event.note? Event.tellsOf
  split
  · simp
  · rename_i hother
    have hname : e.name ∉ names := fun hmem => hother (hnames hmem)
    simp [isNoteOf, hname]

theorem countP_isNoteOf (h : ∀ note ∈ notes, note.1 ∈ names) (p : Path) :
    notes.countP (isNoteOf names p) = (notes.map (·.2)).count (some p.toString) := by
  rw [List.count_eq_countP, List.countP_map]
  refine List.countP_congr fun note hnote => ?_
  simp [isNoteOf, h note hnote]

theorem countP_isNoteOf_eq_zero (h : ∀ note ∈ notes, note.1 ∉ names) (p : Path) :
    notes.countP (isNoteOf names p) = 0 := by
  refine List.countP_eq_zero.mpr fun note hnote => ?_
  simp [isNoteOf, h note hnote]

theorem count_toString {paths : List Path} (hnodup : paths.Nodup) (hnormal : ∀ q ∈ paths, q.Normal)
    {p : Path} (hp : p.Normal) :
    (paths.map fun q => some q.toString).count (some p.toString) = if p ∈ paths then 1 else 0 := by
  have htexts : (paths.map fun q => some q.toString).Nodup :=
    hnodup.map_on fun q hq q' hq' heq => (hnormal q hq).eq_of_toString_eq (hnormal q' hq')
      (Option.some.inj heq)
  split
  · rename_i hmem
    exact List.count_eq_one_of_mem htexts (List.mem_map.mpr ⟨p, hmem, rfl⟩)
  · rename_i hmem
    refine List.count_eq_zero.mpr fun htext => hmem ?_
    obtain ⟨q, hq, heq⟩ := List.mem_map.mp htext
    rwa [← (hnormal q hq).eq_of_toString_eq hp (Option.some.inj heq)]

end Counts

/-- One session comes after another, and all that was told in between and counts are the given
notes. -/
def Session.Tells (s t : Session) (notes : List (String × Option String)) : Prop :=
  ∃ events, t.log = s.log ++ events ∧ events.filterMap Event.note? = notes

namespace Session.Tells

variable {s t u : Session} {notes more : List (String × Option String)}

theorem refl (s : Session) : s.Tells s [] := ⟨[], by simp, rfl⟩

theorem trans : s.Tells t notes → t.Tells u more → s.Tells u (notes ++ more) := by
  rintro ⟨events, hlog, rfl⟩ ⟨events', hlog', rfl⟩
  exact ⟨events ++ events', by rw [hlog', hlog, List.append_assoc], by simp⟩

theorem emit (s : Session) (name : String) (level : Level) (fields : List (String × Value)) :
    s.Tells (s.emit name level fields)
      (Event.note? ⟨name, level, fields, s.batch.current⟩).toList :=
  ⟨[⟨name, level, fields, s.batch.current⟩], rfl, by cases h : Event.note? _ <;> simp [h]⟩

theorem emit_other (s : Session) {name : String}
    (h : name ∉ "batch_extracted" :: endNames ++ vetoNames) (level : Level)
    (fields : List (String × Value)) : s.Tells (s.emit name level fields) [] := by
  have htells := emit s name level fields
  simpa only [Event.note?, if_neg h, Option.toList_none] using htells

end Session.Tells

def endName : Outcome → String
  | .ok _ => "file_extracted"
  | .error e =>
    match e.code with
    | .unsupportedLanguage => "file_unsupported"
    | _ => "file_extraction_failed"

theorem endName_mem (o : Outcome) : endName o ∈ endNames := by
  rcases o with e | outline
  · cases hcode : e.code <;> simp [endName, endNames, hcode]
  · simp [endName, endNames]

theorem endName_eq_extracted {o : Outcome} :
    endName o = "file_extracted" ↔ ∃ outline, o = .ok outline := by
  rcases o with e | outline
  · cases hcode : e.code <;> simp [endName, hcode]
  · simp [endName]

theorem endName_eq_unsupported {o : Outcome} :
    endName o = "file_unsupported" ↔ ∃ e, o = .error e ∧ e.name = "UNSUPPORTED_LANGUAGE" := by
  rcases o with e | outline
  · cases hcode : e.code <;> simp [endName, hcode, OutlineError.name_eq, ErrorCode.name]
  · simp [endName]

def endNote (p : Path) (o : Outcome) : String × Option String := (endName o, some p.toString)

/-- All that events tell and counts: one veto for each of the vetoed paths, and then the ends of the
files, in some order. -/
structure Accounts (events : List Event) (vetoed : List Path) (outcomes : List (Path × Outcome))
    (vetoes ends : List (String × Option String)) : Prop where
  notes : events.filterMap Event.note? = vetoes ++ ends
  vetoPaths : vetoes.map (·.2) = vetoed.map fun p => some p.toString
  vetoNamed : ∀ note ∈ vetoes, note.1 ∈ vetoNames
  ends : ends.Perm (outcomes.map fun e => endNote e.1 e.2)

theorem notMem_endNames {name : String} (h : name ∈ vetoNames) : name ∉ endNames := by
  revert name
  decide

namespace Accounts

variable {events : List Event} {vetoed : List Path} {outcomes : List (Path × Outcome)}
  {vetoes ends : List (String × Option String)} (h : Accounts events vetoed outcomes vetoes ends)

include h

theorem endNamed : ∀ note ∈ ends, note.1 ∈ endNames := by
  intro note hnote
  obtain ⟨entry, -, rfl⟩ := List.mem_map.mp (h.ends.mem_iff.mp hnote)
  exact endName_mem entry.2

theorem countP_ends (p : Path) : events.countP (·.tellsOf endNames p) =
    ((outcomes.map (·.1)).map fun q => some q.toString).count (some p.toString) := by
  have hvetoes : vetoes.countP (isNoteOf endNames p) = 0 :=
    countP_isNoteOf_eq_zero (fun note hnote => notMem_endNames (h.vetoNamed note hnote)) p
  rw [countP_tellsOf (by decide), h.notes, List.countP_append, hvetoes, Nat.zero_add,
    countP_isNoteOf h.endNamed, (h.ends.map (·.2)).count_eq, List.map_map, List.map_map]
  rfl

theorem countP_vetoes (p : Path) : events.countP (·.tellsOf vetoNames p) =
    (vetoed.map fun q => some q.toString).count (some p.toString) := by
  have hends : ends.countP (isNoteOf vetoNames p) = 0 :=
    countP_isNoteOf_eq_zero (fun note hnote hveto => notMem_endNames hveto (h.endNamed note hnote))
      p
  rw [countP_tellsOf (by decide), h.notes, List.countP_append, hends, Nat.add_zero,
    countP_isNoteOf h.vetoNamed, h.vetoPaths]

theorem note_mem {e : Event} (he : e ∈ events)
    (hname : e.name ∈ "batch_extracted" :: endNames ++ vetoNames) :
    (e.name, e.path?) ∈ vetoes ++ ends := by
  rw [← h.notes]
  exact List.mem_filterMap.mpr ⟨e, he, if_pos hname⟩

theorem exists_outcome {e : Event} (he : e ∈ events) {p : Path} (hends : e.tellsOf endNames p) :
    ∃ q o, (q, o) ∈ outcomes ∧ q.toString = p.toString ∧ e.name = endName o := by
  simp only [Event.tellsOf, isNoteOf, Bool.and_eq_true, List.contains_iff_mem, beq_iff_eq] at hends
  obtain ⟨hname, hpath⟩ := hends
  rcases List.mem_append.mp (h.note_mem he (by simp [hname])) with hveto | hend
  · exact absurd hname (notMem_endNames (h.vetoNamed _ hveto))
  · obtain ⟨⟨q, o⟩, hentry, heq⟩ := List.mem_map.mp (h.ends.mem_iff.mp hend)
    obtain ⟨hendName, htext⟩ := Prod.mk.inj heq
    exact ⟨q, o, hentry, Option.some.inj (htext.trans hpath), hendName.symm⟩

section Distinct

variable (hnodup : (outcomes.map (·.1)).Nodup) (hnormal : ∀ q ∈ outcomes.map (·.1), q.Normal)

include hnodup hnormal

theorem countP_ends_eq {p : Path} (hp : p.Normal) :
    events.countP (·.tellsOf endNames p) = if p ∈ outcomes.map (·.1) then 1 else 0 := by
  rw [h.countP_ends, count_toString hnodup hnormal hp]

theorem name_of_tellsOf {p : Path} {o : Outcome} (hentry : (p, o) ∈ outcomes) {e : Event}
    (he : e ∈ events) (hend : e.tellsOf endNames p) : e.name = endName o := by
  obtain ⟨q, o', hentry', htext, hname⟩ := h.exists_outcome he hend
  have hq := hnormal q (List.mem_map.mpr ⟨(q, o'), hentry', rfl⟩)
  have hp := hnormal p (List.mem_map.mpr ⟨(p, o), hentry, rfl⟩)
  cases hq.eq_of_toString_eq hp htext
  cases List.inj_on_of_nodup_map hnodup hentry' hentry rfl
  exact hname

end Distinct

theorem name_ne_batch {e : Event} (he : e ∈ events) : e.name ≠ "batch_extracted" := by
  intro hname
  have hnote := h.note_mem he (by simp [hname])
  rw [hname] at hnote
  rcases List.mem_append.mp hnote with hveto | hend
  · exact absurd (h.vetoNamed _ hveto) (by simp [vetoNames])
  · exact absurd (h.endNamed _ hend) (by simp [endNames])

end Accounts

namespace Registry

variable (r : Registry) (s : Session)

theorem tells_loadAnew (l : Language) : s.Tells (r.loadAnew l s).2 [] := by
  unfold loadAnew
  dsimp only
  split
  · exact ⟨[], by simp, rfl⟩
  · split
    · exact ⟨[], by simp, rfl⟩
    · exact ⟨_, rfl, rfl⟩

theorem tells_loadGrammar (id : String) : s.Tells (r.loadGrammar id s).2 [] := by
  unfold loadGrammar
  split
  · exact .refl s
  · split
    · exact .refl s
    · rename_i l _
      have hanew := r.tells_loadAnew s l
      generalize r.loadAnew l s = result at hanew ⊢
      obtain ⟨answer, after⟩ := result
      cases answer <;> exact hanew

theorem tells_loadNext (id : String) (report : LoadReport) :
    s.Tells (r.loadNext id report s).2 [] := by
  unfold loadNext
  split
  · exact .emit_other s (by decide) _ _
  · split
    · exact .emit_other s (by decide) _ _
    · have hload := r.tells_loadGrammar s id
      generalize r.loadGrammar id s = result at hload ⊢
      obtain ⟨answer, after⟩ := result
      cases answer with
      | ok g => exact hload
      | error e => exact hload.trans (.emit_other after (by decide) _ _)

theorem tells_loadEach (ids : List String) (report : LoadReport) :
    s.Tells (r.loadEach ids report s).2 [] := by
  induction ids generalizing report s with
  | nil => exact .refl s
  | cons id ids ih => exact (r.tells_loadNext s id report).trans (ih _ _)

end Registry

namespace Extractor

section Work

variable (x : Extractor) (d : Disk) (report : Registry.LoadReport) (p : Path) (l : Language)
  (s : Session)

theorem tells_fail (e : OutlineError) : s.Tells (fail p e s).2 [endNote p (.error e)] := by
  unfold fail endNote endName
  dsimp only
  cases e.code <;> exact Session.Tells.emit s _ _ _

theorem tells_settle (result : Except Trouble (Option (List Definition))) :
    s.Tells (settle p l result s).2 [endNote p (settle p l result s).1] := by
  cases result with
  | ok ds => exact Session.Tells.emit s _ _ _
  | error trouble =>
    cases trouble with
    | known e => exact tells_fail p s e
    | crash f => exact (Session.Tells.emit_other s (by decide) _ _).trans (tells_fail p _ _)

theorem tells_parseFile (g : LoadedGrammar) (content : Text.Utf8.Bytes) :
    s.Tells (x.parseFile p g content s).2 [] := by
  unfold parseFile parseSource
  dsimp only
  cases Parsed.ofOutcome g.language (x.parse g.language (s.parses.count g.language) content) with
  | error e => exact .refl s
  | ok parsed =>
    dsimp only
    split
    · exact .refl s
    · exact .emit_other { s with parses := s.parses.bump g.language } (by decide) _ _

theorem tells_grammarCaptures (g : LoadedGrammar) (content : Text.Utf8.Bytes) :
    s.Tells (x.grammarCaptures p l g content s).2 [] := by
  have hparse := x.tells_parseFile p s g content
  unfold grammarCaptures
  generalize x.parseFile p g content s = result at hparse ⊢
  obtain ⟨answer, after⟩ := result
  cases answer <;> exact hparse

theorem tells_outlineWith (g : Option LoadedGrammar) :
    s.Tells (x.outlineWith d p l g s).2 [endNote p (x.outlineWith d p l g s).1] := by
  unfold outlineWith definitionsIn
  cases d.read p with
  | error e => exact tells_settle p l s _
  | ok content =>
    have hcaptures : s.Tells (x.capturesIn p l g content s).2 [] := by
      unfold capturesIn
      split
      · exact x.tells_grammarCaptures p l s _ content
      · exact .refl s
    exact hcaptures.trans (tells_settle p l _ _)

theorem tells_outlineIn :
    s.Tells (x.outlineIn d report p s).2 [endNote p (x.outlineIn d report p s).1] := by
  unfold outlineIn
  cases assignment report p with
  | error e => exact tells_fail p s e
  | ok assigned => exact x.tells_outlineWith d p assigned.1 s assigned.2

def progressNotes (p : Path) : Progress → List (String × Option String)
  | .ended o => [endNote p o]
  | _ => []

theorem tells_proceed (progress : Progress) :
    ∃ told, s.Tells (x.proceed d report p progress s).2 told ∧
      progressNotes p (x.proceed d report p progress s).1 = progressNotes p progress ++ told := by
  cases progress with
  | planned =>
    simp only [proceed]
    cases assignment report p with
    | error e => exact ⟨_, tells_fail p s e, rfl⟩
    | ok assigned => exact ⟨[], .refl s, rfl⟩
  | reading l g =>
    simp only [proceed]
    cases d.read p with
    | error e => exact ⟨_, tells_settle p l s _, rfl⟩
    | ok content => cases l.byHeadings <;> cases g <;> exact ⟨[], .refl s, rfl⟩
  | parsing l g content =>
    have hparse := x.tells_parseFile p s g content
    simp only [proceed]
    generalize x.parseFile p g content s = result at hparse ⊢
    obtain ⟨answer, after⟩ := result
    cases answer with
    | error e => exact ⟨_, hparse.trans (tells_fail p after e), rfl⟩
    | ok parsed => exact ⟨[], hparse, rfl⟩
  | searching l g content tree =>
    simp only [proceed, searchTree]
    cases capturesOfOutcome l.name (x.search l.name (s.searches.count l.name) g.query tree) with
    | error e => exact ⟨_, tells_fail p _ e, rfl⟩
    | ok captures => exact ⟨[], .refl s, rfl⟩
  | listing l content captures => exact ⟨_, tells_settle p l s _, rfl⟩
  | ended outcome => exact ⟨[], .refl s, rfl⟩

theorem tells_finish (progress : Progress) :
    ∃ told, s.Tells (x.finish d report p progress s).2 told ∧
      [endNote p (x.finish d report p progress s).1] = progressNotes p progress ++ told := by
  cases progress with
  | planned => exact ⟨_, x.tells_outlineIn d report p s, rfl⟩
  | reading l g => exact ⟨_, x.tells_outlineWith d p l s g, rfl⟩
  | parsing l g content =>
    exact ⟨_, (x.tells_grammarCaptures p l s g content).trans (tells_settle p l _ _), rfl⟩
  | searching l g content tree => exact ⟨_, tells_settle p l _ _, rfl⟩
  | listing l content captures => exact ⟨_, tells_settle p l s _, rfl⟩
  | ended outcome => exact ⟨[], .refl s, rfl⟩

end Work

end Extractor

namespace Pool

variable (x : Extractor) (d : Disk) (report : Registry.LoadReport) (workers : Int)

def jobNotes (job : Job) : List (String × Option String) :=
  Extractor.progressNotes job.path job.progress

/-- The log told of the ends of those jobs that are at their ends, in the order in which they got
there. -/
def Told (s : Session) (pool : Pool) : Prop :=
  ∃ told, s.Tells pool.session told ∧ told.Perm (pool.jobs.flatMap jobNotes)

theorem told_start (paths : List Path) (s : Session) : (start paths s).Told s := by
  refine ⟨[], .refl s, ?_⟩
  have hnone : (start paths s).jobs.flatMap jobNotes = [] := by
    simp [start, jobNotes, Extractor.progressNotes]
  rw [hnone]

theorem told_advance {s : Session} {pool : Pool} (h : pool.Told s) (i : Nat) :
    (pool.advance x d report workers i).Told s := by
  unfold advance
  cases hjob : pool.jobs[i]? with
  | none => exact h
  | some job =>
    dsimp only
    split
    · obtain ⟨told, htells, hperm⟩ := h
      obtain ⟨more, hmore, hnotes⟩ := x.tells_proceed d report job.path pool.session job.progress
      obtain ⟨hlt, hget⟩ := List.getElem?_eq_some_iff.mp hjob
      have hsplit : pool.jobs = pool.jobs.take i ++ job :: pool.jobs.drop (i + 1) := by
        rw [← hget, ← List.drop_eq_getElem_cons hlt, List.take_append_drop]
      refine ⟨told ++ more, htells.trans hmore, ?_⟩
      rw [hsplit] at hperm
      rw [List.set_eq_take_append_cons_drop, if_pos hlt]
      simp only [List.flatMap_append, List.flatMap_cons, jobNotes] at hperm ⊢
      rw [hnotes]
      refine (hperm.append_right more).trans ?_
      simp only [List.append_assoc]
      exact (List.perm_append_comm.append_left _).append_left _
    · exact h

theorem told_run {s : Session} (schedule : List Nat) {pool : Pool} (h : pool.Told s) :
    (pool.run x d report workers schedule).Told s := by
  induction schedule generalizing pool with
  | nil => exact h
  | cons i schedule ih => exact ih (told_advance x d report workers h i)

theorem tells_outcomes (jobs : List Job) (s : Session) :
    ∃ told, s.Tells (outcomes x d report jobs s).2 told ∧
      (jobs.flatMap jobNotes ++ told).Perm
        ((outcomes x d report jobs s).1.map fun e => endNote e.1 e.2) := by
  induction jobs generalizing s with
  | nil => exact ⟨[], .refl s, .nil⟩
  | cons job jobs ih =>
    obtain ⟨told, htells, hnotes⟩ := x.tells_finish d report job.path s job.progress
    obtain ⟨more, hmore, hperm⟩ := ih (x.finish d report job.path job.progress s).2
    refine ⟨told ++ more, htells.trans hmore, ?_⟩
    have hfirst : [endNote job.path (x.finish d report job.path job.progress s).1] =
        jobNotes job ++ told := hnotes
    simp only [outcomes, List.map_cons, List.flatMap_cons, List.append_assoc]
    rw [← List.singleton_append, hfirst, List.append_assoc]
    refine List.Perm.append_left _ ?_
    have hswap : (jobs.flatMap jobNotes ++ (told ++ more)).Perm
        (told ++ (jobs.flatMap jobNotes ++ more)) := by
      have hcomm : (jobs.flatMap jobNotes ++ told).Perm (told ++ jobs.flatMap jobNotes) :=
        List.perm_append_comm
      simpa only [List.append_assoc] using hcomm.append_right more
    exact hswap.trans (hperm.append_left told)

end Pool

namespace Extractor

variable (x : Extractor) (d : Disk) (s : Session)

theorem tells_outlineFiles (report : Registry.LoadReport) (workers : Int) (schedule : List Nat)
    (paths : List Path) :
    ∃ told, s.Tells (x.outlineFiles d report workers schedule paths s).2 told ∧
      told.Perm ((x.outlineFiles d report workers schedule paths s).1.map fun e =>
        endNote e.1 e.2) := by
  unfold outlineFiles
  dsimp only
  generalize hpool : (if workers ≤ 1 then Pool.start paths s
    else (Pool.start paths s).run x d report workers schedule) = pool
  have htold : pool.Told s := by
    rw [← hpool]
    split
    · exact Pool.told_start paths s
    · exact Pool.told_run x d report workers schedule (Pool.told_start paths s)
  obtain ⟨told, htells, hperm⟩ := htold
  obtain ⟨more, hmore, hends⟩ := Pool.tells_outcomes x d report pool.jobs pool.session
  exact ⟨told ++ more, htells.trans hmore, (hperm.append_right more).trans hends⟩

theorem tells_allows (p : Path) : ∃ told, s.Tells (x.allows p s).2 told ∧
    told.map (·.2) = (if x.Permits p then [] else [some p.toString]) ∧
      ∀ note ∈ told, note.1 ∈ vetoNames := by
  by_cases hpermits : x.Permits p
  · rw [allows_of_permits hpermits, if_pos hpermits]
    exact ⟨[], .refl s, rfl, by simp⟩
  · rw [if_neg hpermits]
    have hvetoed := allows_of_not_permits hpermits s
    unfold allows at hvetoed ⊢
    cases haccess : x.access with
    | none => simp [haccess] at hvetoed
    | some check =>
      rw [haccess] at hvetoed
      dsimp only at hvetoed ⊢
      cases hanswer : check p with
      | error f => exact ⟨_, .emit s _ _ _, rfl, by simp [Event.note?, vetoNames]⟩
      | ok answer =>
        cases answer with
        | true => simp [hanswer] at hvetoed
        | false => exact ⟨_, .emit s _ _ _, rfl, by simp [Event.note?, vetoNames]⟩

theorem tells_allowedOf (paths : List Path) : ∃ told, s.Tells (x.allowedOf paths s).2 told ∧
    told.map (·.2) = (paths.filter (¬x.Permits ·)).map (fun p => some p.toString) ∧
    ∀ note ∈ told, note.1 ∈ vetoNames := by
  induction paths generalizing s with
  | nil => exact ⟨[], .refl s, rfl, by simp⟩
  | cons p paths ih =>
    obtain ⟨told, htells, hpaths, hnames⟩ := x.tells_allows s p
    obtain ⟨more, hmore, hpaths', hnames'⟩ := ih (x.allows p s).2
    refine ⟨told ++ more, htells.trans hmore, ?_, ?_⟩
    · rw [List.map_append, hpaths, hpaths', List.filter_cons]
      by_cases hpermits : x.Permits p <;> simp [hpermits]
    · intro note hnote
      exact (List.mem_append.mp hnote).elim (hnames note) (hnames' note)

/-- The log of a batch: the vetoes in the order of the paths, the ends of the files, and one last
event. -/
theorem log_outlineTogether (requested : Option Int) (schedule : List Nat) (paths : List Path) :
    let result := x.outlineTogether d requested schedule paths s
    ∃ (events : List Event) (vetoes ends : List (String × Option String)) (last : Event),
      result.2.log = s.log ++ events ++ [last] ∧
      Accounts events (paths.eraseDups.filter (¬x.Permits ·)) result.1 vetoes ends ∧
      last.name = "batch_extracted" ∧ ∃ languages, last.fields =
        [("files", .int result.1.length), ("failed", .int (result.1.countP (isFailure ·.2))),
         ("skipped",
         .int (paths.eraseDups.length - (paths.eraseDups.filter (x.Permits ·)).length : Nat)),
         ("languages", languages)] := by
  obtain ⟨vetoes, hvetoes, hpaths, hnames⟩ :=
    x.tells_allowedOf { s with batch := s.batch.set none } paths.eraseDups
  obtain ⟨hallowed, -⟩ := x.allowedOf_eq paths.eraseDups { s with batch := s.batch.set none }
  unfold outlineTogether outlineAll
  dsimp only
  rw [hallowed]
  generalize x.allowedOf paths.eraseDups { s with batch := s.batch.set none } = checked at hvetoes ⊢
  have hloads := x.registry.tells_loadEach checked.2
    (Registry.distinctIds (neededIds (paths.eraseDups.filter (x.Permits ·)))) ⟨[], []⟩
  unfold Registry.loadAll
  generalize x.registry.loadEach _ _ checked.2 = loaded at hloads ⊢
  obtain ⟨ends, hends, hperm⟩ := x.tells_outlineFiles d loaded.2 loaded.1
    (x.workerCount requested (paths.eraseDups.filter (x.Permits ·)).length) schedule
      (paths.eraseDups.filter (x.Permits ·))
  obtain ⟨events, hlog, hnotes⟩ := (hvetoes.trans hloads).trans hends
  exact ⟨events, vetoes, ends, _, congrArg (· ++ [_]) hlog,
    ⟨by simpa using hnotes, hpaths, hnames, hperm⟩, rfl, _, rfl⟩

theorem card_filter_toFinset (paths : List Path) (P : Path → Prop) [DecidablePred P] :
    (paths.toFinset.filter P).card = (paths.eraseDups.filter (P ·)).length := by
  rw [← List.toFinset_card_of_nodup ((nodup_eraseDups paths).filter _)]
  congr 1
  ext p
  simp

theorem keys_outlineTogether (requested : Option Int) (schedule : List Nat) (paths : List Path) :
    (x.outlineTogether d requested schedule paths s).1.map (·.1) = paths.eraseDups.filter
      (x.Permits ·) := by
  obtain ⟨after, -, houtcomes, -⟩ := x.outlineTogether_endAlike d requested schedule paths s
  rw [houtcomes]
  exact (x.outlineFiles_spec d _ _ schedule _ _).1

/-- The log of a batch accounts for every path once, in whatever order its files are worked on. A
path with an outcome has one event for its end, whose name agrees with the outcome; a vetoed path
has one event for the veto and none for an end; and after all of these a single event counts the
outcomes, the errors among them and the paths that were vetoed. -/
theorem batch_log_accounts_for_paths (x : Extractor) (d : Disk) (texts : List String) (s : Session)
    (requested : Option Int) (schedule : List Nat) :
    let paths := texts.map Path.ofString
    let result := x.outlineTogether d requested schedule paths s
    let vetoed := paths.toFinset.filter (¬x.Permits ·)
    ∃ (events : List Event) (last : Event), result.2.log = s.log ++ events ++ [last] ∧
      (∀ p, p ∈ result.1.map (·.1) ↔ p ∈ paths ∧ x.Permits p) ∧
      (∀ (p : Path) (o : Outcome), (p, o) ∈ result.1 → events.countP (·.tellsOf endNames p) = 1 ∧
        ∀ e ∈ events, e.tellsOf endNames p →
          (e.name = "file_extracted" ↔ ∃ outline, o = .ok outline) ∧
          (e.name = "file_unsupported" ↔ ∃ err, o = .error err ∧
            err.name = "UNSUPPORTED_LANGUAGE")) ∧
      (∀ p ∈ vetoed, events.countP (·.tellsOf vetoNames p) = 1 ∧
        events.countP (·.tellsOf endNames p) = 0) ∧
      (∀ e ∈ events, e.name ≠ "batch_extracted") ∧ last.name = "batch_extracted" ∧
      last.fields.lookup "files" = some (.int result.1.length) ∧
      last.fields.lookup "failed" = some (.int (result.1.countP (isFailure ·.2))) ∧
      last.fields.lookup "skipped" = some (.int vetoed.card) ∧
      result.1.length + vetoed.card = paths.toFinset.card := by
  intro paths result vetoed
  have hkeys : result.1.map (·.1) = paths.eraseDups.filter (x.Permits ·) :=
    x.keys_outlineTogether d s requested schedule paths
  obtain ⟨events, vetoes, ends, last, hlog, haccounts, hlast, languages, hfields⟩ :=
    x.log_outlineTogether d s requested schedule paths
  have hmem : ∀ p, p ∈ result.1.map (·.1) ↔ p ∈ paths ∧ x.Permits p := by
    intro p
    rw [hkeys, List.mem_filter, List.mem_eraseDups, decide_eq_true_eq]
  have hnormal : ∀ p ∈ paths, p.Normal := by
    intro p hp
    obtain ⟨text, -, rfl⟩ := List.mem_map.mp hp
    exact Path.normal_ofString text
  have hnodup : (result.1.map (·.1)).Nodup := hkeys ▸ (nodup_eraseDups paths).filter _
  have hnormalKeys : ∀ p ∈ result.1.map (·.1), p.Normal := fun p hp => hnormal p ((hmem p).mp hp).1
  have hfiles : result.1.length = (paths.eraseDups.filter (x.Permits ·)).length := by
    rw [← hkeys, List.length_map]
  have hvetoed : vetoed.card = (paths.eraseDups.filter (¬x.Permits ·)).length :=
    card_filter_toFinset paths _
  have hdistinct : paths.toFinset.card = paths.eraseDups.length := by
    simpa using card_filter_toFinset paths (fun _ => True)
  have htotal : paths.eraseDups.length =
      (paths.eraseDups.filter (x.Permits ·)).length +
        (paths.eraseDups.filter (¬x.Permits ·)).length := by
    simpa using List.length_eq_length_filter_add (l := paths.eraseDups) (x.Permits ·)
  have hskipped : paths.eraseDups.length - (paths.eraseDups.filter (x.Permits ·)).length =
      vetoed.card := by omega
  refine ⟨events, last, hlog, hmem, fun p o hentry => ?_, fun p hp => ?_,
    fun e he => haccounts.name_ne_batch he,
    hlast, ?_, ?_, ?_, by omega⟩
  · have hkey : p ∈ result.1.map (·.1) := List.mem_map.mpr ⟨(p, o), hentry, rfl⟩
    refine ⟨by rw [haccounts.countP_ends_eq hnodup hnormalKeys (hnormalKeys p hkey), if_pos hkey],
      fun e he hend => ?_⟩
    rw [haccounts.name_of_tellsOf hnodup hnormalKeys hentry he hend]
    exact ⟨endName_eq_extracted, endName_eq_unsupported⟩
  · obtain ⟨hp, hveto⟩ := Finset.mem_filter.mp hp
    have hp := List.mem_toFinset.mp hp
    have hlisted : p ∈ paths.eraseDups.filter (¬x.Permits ·) := by simpa [hveto] using hp
    have hnormalVetoed : ∀ q ∈ paths.eraseDups.filter (¬x.Permits ·), q.Normal := fun q hq =>
      hnormal q (List.mem_eraseDups.mp (List.mem_of_mem_filter hq))
    constructor
    · rw [haccounts.countP_vetoes,
        count_toString ((nodup_eraseDups paths).filter _) hnormalVetoed (hnormal p hp),
        if_pos hlisted]
    · rw [haccounts.countP_ends_eq hnodup hnormalKeys (hnormal p hp),
        if_neg fun hkey => hveto ((hmem p).mp hkey).2]
  · rw [hfields]
    rfl
  · rw [hfields]
    rfl
  · rw [hfields, ← hskipped]
    rfl

/-- One file twice, one whose check faults, and two workers that take turns. -/
theorem batch_log_accounts_for_paths_guarded :
    let paths := ["b.go", "a.md", "./b.go", "secret.py"].map Path.ofString
    let result := guarded.outlineTogether (.empty []) (some 2) [1, 0, 0, 1] paths .start
    ∃ (events : List Event) (last : Event), result.2.log = events ++ [last] ∧
      events.countP (·.tellsOf endNames (.ofString "b.go")) = 1 ∧
      events.countP (·.tellsOf vetoNames (.ofString "secret.py")) = 1 ∧
      events.countP (·.tellsOf endNames (.ofString "secret.py")) = 0 ∧
      last.fields.lookup "files" = some (.int 2) ∧
        last.fields.lookup "skipped" = some (.int 1) := by
  intro paths result
  have hpermits : guarded.Permits (.ofString "b.go") := by decide +kernel
  have hcard : (paths.toFinset.filter (¬guarded.Permits ·)).card = 1 := by decide +kernel
  have hdistinct : paths.toFinset.card = 3 := by decide +kernel
  obtain ⟨events, last, hlog, hkeys, hends, hvetoes, -, -, hfiles, -, hskipped, htotal⟩ :=
    batch_log_accounts_for_paths guarded (.empty []) ["b.go", "a.md", "./b.go", "secret.py"] .start
      (some 2) [1, 0, 0, 1]
  obtain ⟨entry, hentry, hpath⟩ :=
    List.mem_map.mp ((hkeys (.ofString "b.go")).mpr ⟨by decide +kernel, hpermits⟩)
  obtain ⟨hveto, hend⟩ := hvetoes (.ofString "secret.py") (by decide +kernel)
  have hlength : result.1.length = 2 := by
    rw [hcard, hdistinct] at htotal
    exact Nat.succ.inj htotal
  refine ⟨events, last, hlog, ?_, hveto, hend, ?_, ?_⟩
  · rw [← hpath]
    exact (hends _ _ hentry).1
  · rw [hfiles, hlength]
    rfl
  · rw [hskipped, hcard]
    rfl

end Extractor

end SourceOutline
