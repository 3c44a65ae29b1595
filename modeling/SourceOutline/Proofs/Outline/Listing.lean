import SourceOutline.Outline.Synthesis

/-! Listing candidates, and how it can fail. Candidates are long enough to be in order, so a listing
fails only where the line test faults or a candidate starts before the first line. Without either,
which ranges are listed is a plain choice. -/
namespace SourceOutline

def LineTest.total (test : String → Bool) : LineTest := fun line => .ok (test line)

/-- The trimmed text of a line, empty past the last line. -/
def titleAt (lines : List String) (n : Int) : String := Text.trim (lines.getD n.toNat "")

theorem labelAt_of_nonneg (lines : List String) {n : Int} (h : 0 ≤ n) :
    labelAt lines n = .ok (titleAt lines n) := by
  unfold labelAt lineAt titleAt
  by_cases hlt : n < lines.length
  · simp only [hlt, if_true, if_neg (Int.not_lt.mpr h)]
    rfl
  · have hlen : lines.length ≤ n.toNat := by omega
    simp only [hlt, if_false]
    rw [List.getD_eq_getElem?_getD, List.getElem?_eq_none hlen]
    rfl

/-- The ranges that a listing chooses: each once, and no block whose first line passes the test. -/
def chosen (lines : List String) (test : String → Bool) :
    List LineRange → List Candidate → List LineRange
  | _, [] => []
  | seen, c :: cs =>
    if c.range ∈ seen then chosen lines test seen cs
    else if !c.named && test (titleAt lines c.range.first) then chosen lines test seen cs
    else c.range :: chosen lines test (c.range :: seen) cs

/-- A definition without the proof it carries. -/
def Definition.entry (d : Definition) : LineRange × String := (d.range, d.label)

section Step

variable {lines : List String} {test : LineTest} {seen : List LineRange} {c : Candidate}
  {cs : List Candidate}

theorem listing_cons_of_mem (hseen : c.range ∈ seen) :
    listing lines test seen (c :: cs) = listing lines test seen cs := by
  rw [listing, if_pos hseen]

/-- A candidate in order whose range is new and whose first line exists: only the test can stop
it. -/
theorem listing_cons_of_label (hnew : c.range ∉ seen) {label : String}
    (hlabel : labelAt lines c.range.first = .ok label) (hordered : c.range.first ≤ c.range.last) :
    listing lines test seen (c :: cs) = (c.isInline test label).bind fun skipped =>
      if skipped then listing lines test seen cs
      else (listing lines test (c.range :: seen) cs).map (⟨c.range, label, hordered⟩ :: ·) := by
  have hmake : (Definition.make c.range label).mapError SynthesisError.inverted =
      .ok ⟨c.range, label, hordered⟩ := by
    unfold Definition.make
    rw [dif_pos hordered]
    rfl
  rw [listing, if_neg hnew, hlabel]
  cases hinline : c.isInline test label with
  | error e => simp only [bind, Except.bind, hinline]
  | ok skipped =>
    simp only [bind, Except.bind, hinline, hmake]
    cases skipped with
    | true => rfl
    | false => cases listing lines test (c.range :: seen) cs <;> rfl

/-- What can become of the first candidate in a listing that succeeds: its range is listed already,
it is left out as inline markup, or it is listed. -/
theorem listing_cons_ok {ds : List Definition} (hordered : c.range.first ≤ c.range.last)
    (h : listing lines test seen (c :: cs) = .ok ds) :
    (c.range ∈ seen ∧ listing lines test seen cs = .ok ds) ∨
      ∃ label, c.range ∉ seen ∧ labelAt lines c.range.first = .ok label ∧
        ((c.isInline test label = .ok true ∧ listing lines test seen cs = .ok ds) ∨
          (c.isInline test label = .ok false ∧
            ∃ more, listing lines test (c.range :: seen) cs = .ok more ∧
              ds = ⟨c.range, label, hordered⟩ :: more)) := by
  by_cases hseen : c.range ∈ seen
  · rw [listing_cons_of_mem hseen] at h
    exact .inl ⟨hseen, h⟩
  · cases hlabel : labelAt lines c.range.first with
    | error e =>
      rw [listing, if_neg hseen, hlabel] at h
      cases h
    | ok label =>
      rw [listing_cons_of_label hseen hlabel hordered] at h
      refine .inr ⟨label, hseen, rfl, ?_⟩
      cases hinline : c.isInline test label with
      | error e =>
        rw [hinline] at h
        cases h
      | ok skipped =>
        rw [hinline] at h
        cases skipped with
        | true => exact .inl ⟨rfl, h⟩
        | false =>
          cases hmore : listing lines test (c.range :: seen) cs with
          | error e => simp [Except.bind, hmore, Except.map] at h
          | ok more =>
            simp only [Except.bind, Bool.false_eq_true, if_false, hmore, Except.map,
              Except.ok.injEq] at h
            exact .inr ⟨rfl, more, rfl, h.symm⟩

end Step

theorem mem_candidates {minLines : Int} {captures : List Capture} {c : Candidate} :
    c ∈ candidates minLines captures ↔
    ∃ d ∈ captures, d.isDefinition ∧ minLines ≤ d.span.size ∧ ⟨d.span, d.isName⟩ = c := by
  simp [candidates, Capture.candidate?, and_assoc]

theorem ordered_of_mem_candidates {minLines : Int} {captures : List Capture} (hmin : 1 ≤ minLines) :
    ∀ c ∈ candidates minLines captures, c.range.first ≤ c.range.last := by
  intro c hc
  obtain ⟨d, -, -, hsize, rfl⟩ := mem_candidates.mp hc
  unfold LineRange.size at hsize
  dsimp only
  omega

theorem synthesize_of_le {captures : List Capture} {lines : List String} {minLines : Int}
    {test : LineTest} (hmin : 1 ≤ minLines) : synthesize captures lines minLines test =
      (listing lines test [] (candidates minLines captures)).map fun ds => if ds = [] then none
        else some ds := by
  unfold synthesize
  rw [if_neg (by omega)]
  cases listing lines test [] (candidates minLines captures) with
  | error e => rfl
  | ok ds => cases ds <;> rfl

theorem getD_listed (ds : List Definition) : (if ds = [] then none else some ds).getD [] = ds := by
  cases ds <;> rfl

theorem Candidate.isInline_total (test : String → Bool) (label : String) (c : Candidate) :
    c.isInline (.total test) label = .ok (!c.named && test label) := by
  unfold Candidate.isInline
  cases c.named <;> rfl

theorem listing_total (lines : List String) (test : String → Bool) (seen : List LineRange)
    (cs : List Candidate) (hvalid : ∀ c ∈ cs, 0 ≤ c.range.first ∧ c.range.first ≤ c.range.last) :
    ∃ ds, listing lines (.total test) seen cs = .ok ds ∧
      ds.map Definition.entry = (chosen lines test seen cs).map fun r =>
        (r, titleAt lines r.first) := by
  induction cs generalizing seen with
  | nil => exact ⟨[], rfl, rfl⟩
  | cons c cs ih =>
    have hrest : ∀ c ∈ cs, 0 ≤ c.range.first ∧ c.range.first ≤ c.range.last :=
      fun c hc => hvalid c (.tail _ hc)
    obtain ⟨hnonneg, hordered⟩ := hvalid c (.head _)
    unfold chosen
    by_cases hseen : c.range ∈ seen
    · rw [listing_cons_of_mem hseen, if_pos hseen]
      exact ih seen hrest
    · rw [listing_cons_of_label hseen (labelAt_of_nonneg lines hnonneg) hordered,
        Candidate.isInline_total, if_neg hseen]
      cases hskip : !c.named && test (titleAt lines c.range.first) with
      | true => exact ih seen hrest
      | false =>
        obtain ⟨ds, hds, hentries⟩ := ih (c.range :: seen) hrest
        refine ⟨⟨c.range, titleAt lines c.range.first, hordered⟩ :: ds, ?_, ?_⟩
        · simp only [Except.bind, Bool.false_eq_true, if_false, hds, Except.map]
        · simp [Definition.entry, ← hentries]

theorem chosen_of_nodup (lines : List String) (test : String → Bool) (seen : List LineRange)
    (cs : List Candidate) (hnodup : (cs.map (·.range)).Nodup) (hfresh : ∀ c ∈ cs, c.range ∉ seen) :
    chosen lines test seen cs = (cs.filter fun c => c.named ||
      !test (titleAt lines c.range.first)).map (·.range) := by
  induction cs generalizing seen with
  | nil => rfl
  | cons c cs ih =>
    obtain ⟨hother, hrest⟩ := List.nodup_cons.mp hnodup
    have hseen : ∀ d ∈ cs, d.range ∉ seen := fun d hd => hfresh d (.tail _ hd)
    have hlisted : ∀ d ∈ cs, d.range ∉ c.range :: seen := by
      intro d hd hmem
      rcases List.mem_cons.mp hmem with heq | hmem
      · exact hother (List.mem_map.mpr ⟨d, hd, heq⟩)
      · exact hseen d hd hmem
    unfold chosen
    rw [if_neg (hfresh c (.head _)), ih seen hrest hseen, ih (c.range :: seen) hrest hlisted,
      List.filter_cons]
    cases c.named <;> cases test (titleAt lines c.range.first) <;> rfl

theorem synthesize_total (captures : List Capture) (lines : List String) {minLines : Int}
    (hmin : 1 ≤ minLines) (test : String → Bool)
    (hvalid : ∀ c ∈ candidates minLines captures, 0 ≤ c.range.first ∧ c.range.first ≤ c.range.last)
    (hnodup : ((candidates minLines captures).map (·.range)).Nodup) :
    ∃ ds, synthesize captures lines minLines (.total test) =
      .ok (if ds = [] then none else some ds) ∧
      ds.map Definition.entry =
        ((candidates minLines captures).filter fun c => c.named ||
          !test (titleAt lines c.range.first)).map
          fun c => (c.range, titleAt lines c.range.first) := by
  obtain ⟨ds, hds, hentries⟩ := listing_total lines test [] (candidates minLines captures) hvalid
  refine ⟨ds, ?_, ?_⟩
  · rw [synthesize_of_le hmin, hds]
    rfl
  · rw [hentries, chosen_of_nodup lines test [] _ hnodup (by simp), List.map_map]
    rfl

theorem labelAt_error {lines : List String} {n : Int} {e : SynthesisError}
    (h : labelAt lines n = .error e) : e = .noSuchLine ∧ n + lines.length < 0 := by
  unfold labelAt lineAt at h
  by_cases hlt : n < lines.length
  · by_cases hnegative : n < 0
    · by_cases hbefore : n + lines.length < 0
      · simp only [hlt, hnegative, hbefore, if_true, Except.map, Except.error.injEq] at h
        exact ⟨h.symm, hbefore⟩
      · simp [hlt, hnegative, hbefore, Except.map] at h
    · simp [hlt, hnegative, Except.map] at h
  · simp [hlt, Except.map] at h

theorem isInline_error {test : LineTest} {label : String} {c : Candidate} {e : SynthesisError}
    (h : c.isInline test label = .error e) :
    ∃ trouble, test label = .error trouble ∧ e = .lineTest trouble := by
  unfold Candidate.isInline at h
  split at h
  · cases h
  · cases hanswer : test label with
    | error trouble =>
      rw [hanswer] at h
      cases h
      exact ⟨trouble, rfl, rfl⟩
    | ok answer =>
      rw [hanswer] at h
      cases h

theorem listing_error {lines : List String} {test : LineTest} {seen : List LineRange}
    {cs : List Candidate} {e : SynthesisError} (hordered : ∀ c ∈ cs, c.range.first ≤ c.range.last)
    (h : listing lines test seen cs = .error e) :
    (∃ line trouble, test line = .error trouble ∧ e = .lineTest trouble) ∨
      (e = .noSuchLine ∧ ∃ c ∈ cs, c.range.first + lines.length < 0) := by
  induction cs generalizing seen with
  | nil => cases h
  | cons c cs ih =>
    have hrest : ∀ {seen}, listing lines test seen cs = .error e →
        (∃ line trouble, test line = .error trouble ∧ e = .lineTest trouble) ∨
          (e = .noSuchLine ∧ ∃ d ∈ c :: cs, d.range.first + lines.length < 0) := by
      intro seen h
      refine (ih (fun d hd => hordered d (.tail _ hd)) h).imp_right ?_
      rintro ⟨he, d, hd, hbefore⟩
      exact ⟨he, d, .tail _ hd, hbefore⟩
    by_cases hseen : c.range ∈ seen
    · rw [listing_cons_of_mem hseen] at h
      exact hrest h
    · cases hlabel : labelAt lines c.range.first with
      | error e' =>
        rw [listing, if_neg hseen, hlabel] at h
        cases h
        obtain ⟨rfl, hbefore⟩ := labelAt_error hlabel
        exact .inr ⟨rfl, c, .head _, hbefore⟩
      | ok label =>
        rw [listing_cons_of_label hseen hlabel (hordered c (.head _))] at h
        cases hinline : c.isInline test label with
        | error e' =>
          rw [hinline] at h
          cases h
          obtain ⟨trouble, htest, rfl⟩ := isInline_error hinline
          exact .inl ⟨label, trouble, htest, rfl⟩
        | ok skipped =>
          rw [hinline] at h
          cases skipped with
          | true => exact hrest h
          | false =>
            cases hlisting : listing lines test (c.range :: seen) cs with
            | error e' =>
              simp only [Except.bind, Bool.false_eq_true, if_false, hlisting, Except.map,
                Except.error.injEq] at h
              exact hrest (h ▸ hlisting)
            | ok ds => simp [Except.bind, hlisting, Except.map] at h

theorem synthesize_error {captures : List Capture} {lines : List String} {minLines : Int}
    {test : LineTest} {e : SynthesisError} (hmin : 1 ≤ minLines)
    (h : synthesize captures lines minLines test = .error e) :
    (∃ line trouble, test line = .error trouble ∧ e = .lineTest trouble) ∨
      (e = .noSuchLine ∧ ∃ c ∈ captures, c.span.first + lines.length < 0) := by
  rw [synthesize_of_le hmin] at h
  cases hlisting : listing lines test [] (candidates minLines captures) with
  | ok ds =>
    rw [hlisting] at h
    cases h
  | error e' =>
    rw [hlisting] at h
    cases h
    refine (listing_error (ordered_of_mem_candidates hmin) hlisting).imp_right ?_
    rintro ⟨he, c, hc, hbefore⟩
    obtain ⟨d, hd, -, -, rfl⟩ := mem_candidates.mp hc
    exact ⟨he, d, hd, hbefore⟩

end SourceOutline
