import Mathlib.Data.List.Basic
import SourceOutline.Proofs.Outline.Listing

/-! What the entries of an outline are: which ranges are listed, each of them once, and under which
line. -/
namespace SourceOutline

variable {lines : List String} {test : String → Bool} {minLines : Int} {captures : List Capture}

theorem mem_chosen {seen : List LineRange} {cs : List Candidate} {r : LineRange} :
    r ∈ chosen lines test seen cs ↔
      r ∉ seen ∧ ∃ c ∈ cs, c.range = r ∧ (c.named ∨ test (titleAt lines r.first) = false) := by
  induction cs generalizing seen with
  | nil => simp [chosen]
  | cons c cs ih =>
    unfold chosen
    rw [List.exists_mem_cons_iff]
    split
    · rename_i hseen
      rw [ih]
      refine and_congr_right fun hnew => (or_iff_right ?_).symm
      rintro ⟨rfl, -⟩
      exact hnew hseen
    · rename_i hfresh
      split
      · rename_i hinline
        rw [ih]
        refine and_congr_right fun _ => (or_iff_right ?_).symm
        rintro ⟨rfl, hkept⟩
        simp_all
      · rename_i hkept
        rw [List.mem_cons, ih]
        by_cases heq : r = c.range
        · subst heq
          have hpasses : c.named ∨ test (titleAt lines c.range.first) = false := by
            cases hnamed : c.named <;> simp_all
          simp [hfresh, hpasses]
        · simp [heq, Ne.symm heq]

theorem nodup_chosen (lines : List String) (test : String → Bool) (seen : List LineRange)
    (cs : List Candidate) : (chosen lines test seen cs).Nodup := by
  induction cs generalizing seen with
  | nil => exact .nil
  | cons c cs ih =>
    unfold chosen
    split
    · exact ih seen
    · split
      · exact ih seen
      · refine List.nodup_cons.mpr ⟨fun h => ?_, ih _⟩
        exact (mem_chosen.mp h).1 (.head _)

def listedRanges (ds : Option (List Definition)) : List LineRange := (ds.getD []).map (·.range)

/-- With a test that always answers and no start before the first line, the chosen ranges are listed
under their titles. -/
theorem synthesize_entries (captures : List Capture) (lines : List String) (hmin : 1 ≤ minLines)
    (test : String → Bool) (hstart : ∀ c ∈ captures, 0 ≤ c.span.first) :
    ∃ ds, synthesize captures lines minLines (.total test) = .ok ds ∧ ds ≠ some [] ∧
      (ds.getD []).map Definition.entry =
        (chosen lines test [] (candidates minLines captures)).map fun r =>
          (r, titleAt lines r.first) := by
  have hvalid : ∀ c ∈ candidates minLines captures, 0 ≤ c.range.first ∧
      c.range.first ≤ c.range.last := by
    intro c hc
    obtain ⟨d, hd, -, -, rfl⟩ := mem_candidates.mp hc
    exact ⟨hstart d hd, ordered_of_mem_candidates hmin _ hc⟩
  obtain ⟨ds, hds, hentries⟩ := listing_total lines test [] (candidates minLines captures) hvalid
  refine ⟨if ds = [] then none else some ds, ?_, ?_, ?_⟩
  · rw [synthesize_of_le hmin, hds]
    rfl
  · cases ds <;> simp
  · rw [getD_listed, hentries]

theorem synthesize_chosen (captures : List Capture) (lines : List String) (hmin : 1 ≤ minLines)
    (test : String → Bool) (hstart : ∀ c ∈ captures, 0 ≤ c.span.first) :
    ∃ ds, synthesize captures lines minLines (.total test) = .ok ds ∧ ds ≠ some [] ∧
      listedRanges ds = chosen lines test [] (candidates minLines captures) := by
  obtain ⟨ds, hds, hnonempty, hentries⟩ := synthesize_entries captures lines hmin test hstart
  refine ⟨ds, hds, hnonempty, ?_⟩
  have hfst := congrArg (List.map Prod.fst) hentries
  simpa [listedRanges, Function.comp_def, Definition.entry] using hfst

theorem synthesize_listedRanges (captures : List Capture) (lines : List String)
    (hmin : 1 ≤ minLines) (test : String → Bool) (hstart : ∀ c ∈ captures, 0 ≤ c.span.first) :
    ∃ ds, synthesize captures lines minLines (.total test) = .ok ds ∧ (listedRanges ds).Nodup ∧
      ∀ r, r ∈ listedRanges ds ↔ ∃ c ∈ captures, c.isDefinition ∧ c.span = r ∧ minLines ≤ r.size ∧
        (c.isName ∨ test (titleAt lines r.first) = false) := by
  obtain ⟨ds, hds, -, hranges⟩ := synthesize_chosen captures lines hmin test hstart
  refine ⟨ds, hds, ?_⟩
  rw [hranges]
  refine ⟨nodup_chosen _ _ _ _, fun r => ?_⟩
  rw [mem_chosen]
  constructor
  · rintro ⟨-, c, hc, rfl, hkept⟩
    obtain ⟨d, hd, hdefinition, hsize, rfl⟩ := mem_candidates.mp hc
    exact ⟨d, hd, hdefinition, rfl, hsize, hkept⟩
  · rintro ⟨c, hc, hdefinition, rfl, hsize, hkept⟩
    exact ⟨by simp, _, mem_candidates.mpr ⟨c, hc, hdefinition, hsize, rfl⟩, rfl, hkept⟩

theorem of_mem_listing {test : LineTest} {seen : List LineRange} {cs : List Candidate}
    {ds : List Definition} (hordered : ∀ c ∈ cs, c.range.first ≤ c.range.last)
    (h : listing lines test seen cs = .ok ds) :
    ∀ d ∈ ds, (∃ c ∈ cs, c.range = d.range) ∧ labelAt lines d.range.first = .ok d.label := by
  induction cs generalizing seen ds with
  | nil =>
    cases h
    simp
  | cons c cs ih =>
    have hrest : ∀ {seen ds}, listing lines test seen cs = .ok ds →
        ∀ d ∈ ds, (∃ b ∈ c :: cs, b.range = d.range) ∧
          labelAt lines d.range.first = .ok d.label := by
      intro seen ds h d hd
      obtain ⟨⟨b, hb, hrange⟩, hlabel⟩ := ih (fun d hd => hordered d (.tail _ hd)) h d hd
      exact ⟨⟨b, .tail _ hb, hrange⟩, hlabel⟩
    obtain ⟨-, h⟩ | ⟨label, -, hlabel, ⟨-, h⟩ | ⟨-, more, hmore, rfl⟩⟩ :=
      listing_cons_ok (hordered c (.head _)) h
    · exact hrest h
    · exact hrest h
    · intro d hd
      rcases List.mem_cons.mp hd with rfl | hd
      · exact ⟨⟨c, .head _, rfl⟩, hlabel⟩
      · exact hrest hmore d hd

theorem of_mem_synthesize {test : LineTest} {ds : Option (List Definition)}
    (h : synthesize captures lines minLines test = .ok ds) :
    ∀ d ∈ ds.getD [], (∃ c ∈ captures, c.span = d.range) ∧
      labelAt lines d.range.first = .ok d.label := by
  unfold synthesize at h
  split at h
  · cases h
  · rename_i hmin
    cases hlisting : listing lines test [] (candidates minLines captures) with
    | error e =>
      rw [hlisting] at h
      cases h
    | ok listed =>
      have hlisted : ds.getD [] = listed := by
        rw [hlisting] at h
        cases listed <;> cases h <;> rfl
      intro d hd
      obtain ⟨⟨c, hc, hrange⟩, hlabel⟩ :=
        of_mem_listing (ordered_of_mem_candidates (by omega)) hlisting d (hlisted ▸ hd)
      obtain ⟨e, he, -, -, rfl⟩ := mem_candidates.mp hc
      exact ⟨⟨e, he, hrange⟩, hlabel⟩

theorem labelAt_of_mem_synthesize {test : LineTest} {ds : Option (List Definition)}
    (h : synthesize captures lines minLines test = .ok ds) :
    ∀ d ∈ ds.getD [], labelAt lines d.range.first = .ok d.label :=
  fun d hd => (of_mem_synthesize h d hd).2

section SameLabels

variable {lines' : List String}

theorem listing_congr {cs : List Candidate}
    (h : ∀ c ∈ cs, labelAt lines c.range.first = labelAt lines' c.range.first) (test : LineTest)
    (seen : List LineRange) : listing lines test seen cs = listing lines' test seen cs := by
  induction cs generalizing seen with
  | nil => rfl
  | cons c cs ih =>
    have hrest : ∀ seen, listing lines test seen cs = listing lines' test seen cs :=
      ih fun d hd => h d (.tail _ hd)
    simp only [listing, h c (.head _), hrest]

theorem synthesize_congr
    (h : ∀ c ∈ captures, labelAt lines c.span.first = labelAt lines' c.span.first) (minLines : Int)
    (test : LineTest) :
    synthesize captures lines minLines test = synthesize captures lines' minLines test := by
  unfold synthesize
  rw [listing_congr]
  intro c hc
  obtain ⟨d, hd, -, -, rfl⟩ := mem_candidates.mp hc
  exact h d hd

end SameLabels

end SourceOutline
