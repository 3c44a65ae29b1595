import SourceOutline.Proofs.Outline.Spans

/-! When there is no outline. Numbers below zero count from the end, so a line may be looked for
before the first one, and then the whole outline is refused. A range that is listed already is not
looked up again, and a block may be left out after it was; so what decides is found along the
listing: one that comes to its end has looked up the first line of every candidate. -/
namespace SourceOutline

variable {lines : List String} {minLines : Int}

theorem exists_labelAt_iff {n : Int} :
    (∃ label, labelAt lines n = .ok label) ↔ -(lines.length : Int) ≤ n := by
  constructor
  · rintro ⟨label, h⟩
    by_contra hbefore
    have hnegative : n < 0 := by omega
    have hlt : n < lines.length := by omega
    have hstill : n + lines.length < 0 := by omega
    simp [labelAt, lineAt, hlt, hnegative, hstill, Except.map] at h
  · intro hn
    cases hlabel : labelAt lines n with
    | ok label => exact ⟨label, rfl⟩
    | error e =>
      obtain ⟨-, hbefore⟩ := labelAt_error hlabel
      omega

/-- Every candidate of a listing that comes to its end has a first line. One that was passed over
has the line of the range that was listed before, so these ranges are known to have theirs. -/
theorem labels_of_listing {test : LineTest} {seen : List LineRange} {cs : List Candidate}
    {ds : List Definition} (hordered : ∀ c ∈ cs, c.range.first ≤ c.range.last)
    (hseen : ∀ r ∈ seen, -(lines.length : Int) ≤ r.first)
    (h : listing lines test seen cs = .ok ds) :
    ∀ c ∈ cs, -(lines.length : Int) ≤ c.range.first := by
  induction cs generalizing seen ds with
  | nil => simp
  | cons c cs ih =>
    have hrest := fun d hd => hordered d (List.mem_cons_of_mem c hd)
    rw [List.forall_mem_cons]
    obtain ⟨hmem, h⟩ | ⟨label, -, hlabel, hcase⟩ := listing_cons_ok (hordered c (.head _)) h
    · exact ⟨hseen _ hmem, ih hrest hseen h⟩
    · have hplaced := exists_labelAt_iff.mp ⟨label, hlabel⟩
      obtain ⟨-, h⟩ | ⟨-, more, h, -⟩ := hcase
      · exact ⟨hplaced, ih hrest hseen h⟩
      · exact ⟨hplaced, ih hrest (List.forall_mem_cons.mpr ⟨hplaced, hseen⟩) h⟩

/-- A definition that is long enough to be listed and starts before the first line. -/
def Capture.Unplaced (lines : List String) (minLines : Int) (c : Capture) : Prop :=
  c.isDefinition ∧ minLines ≤ c.span.size ∧ c.span.first < -(lines.length : Int)

theorem synthesize_cases (captures : List Capture) (lines : List String) (hmin : 1 ≤ minLines)
    (test : String → Bool) :
    (∃ ds, synthesize captures lines minLines (.total test) = .ok ds ∧
      (∀ c ∈ captures, ¬c.Unplaced lines minLines) ∧
      ∀ r ∈ listedRanges ds, ∃ c ∈ captures, c.isDefinition ∧ c.span = r ∧ minLines ≤ r.size) ∨
    synthesize captures lines minLines (.total test) = .error .noSuchLine ∧ ∃ c ∈ captures,
      c.Unplaced lines minLines := by
  have hordered : ∀ c ∈ candidates minLines captures, c.range.first ≤ c.range.last :=
    ordered_of_mem_candidates hmin
  rw [synthesize_of_le hmin]
  cases hlisting : listing lines (.total test) [] (candidates minLines captures) with
  | ok ds =>
    refine .inl ⟨_, rfl, ?_, ?_⟩
    · rintro c hc ⟨hdefinition, hsize, hbefore⟩
      have hplaced :=
        labels_of_listing hordered (by simp) hlisting
          _ (mem_candidates.mpr ⟨c, hc, hdefinition, hsize, rfl⟩)
      dsimp only at hplaced
      omega
    · unfold listedRanges
      rw [getD_listed, List.forall_mem_map]
      intro d hd
      obtain ⟨⟨c, hc, hrange⟩, -⟩ := of_mem_listing hordered hlisting d hd
      obtain ⟨e, he, hdefinition, hsize, rfl⟩ := mem_candidates.mp hc
      exact ⟨e, he, hdefinition, hrange, hrange ▸ hsize⟩
  | error e =>
    rcases listing_error hordered hlisting with ⟨line, fault, hfault, -⟩ | ⟨rfl, c, hc, hbefore⟩
    · cases hfault
    · obtain ⟨d, hd, hdefinition, hsize, rfl⟩ := mem_candidates.mp hc
      dsimp only at hbefore
      exact .inr ⟨rfl, d, hd, hdefinition, hsize, by omega⟩

/-- Exactly when there is no outline: fewer than one line is asked for, or else a definition that is
long enough starts before the first line. A range that ends before it starts is neither listed nor
what an outline fails on. -/
theorem outline_refused_exactly (captures : List Capture) (lines : List String) (minLines : Int)
    (test : String → Bool) :
    let outline := synthesize captures lines minLines (.total test)
    ((∃ e, outline = .error e ∧ e.fault.kind = "ValueError") ↔ minLines < 1) ∧
      ((∃ e, outline = .error e ∧ e.fault.kind = "IndexError") ↔ 1 ≤ minLines ∧
        ∃ c ∈ captures, c.isDefinition ∧ minLines ≤ c.span.size ∧
          c.span.first < -(lines.length : Int)) ∧
      ((∃ ds, outline = .ok ds) ↔ 1 ≤ minLines ∧
        ∀ c ∈ captures, c.isDefinition → minLines ≤ c.span.size →
          -(lines.length : Int) ≤ c.span.first) ∧
      (∀ r, outline ≠ .error (.inverted r)) ∧
      ∀ ds, outline = .ok ds → ∀ r ∈ listedRanges ds, r.first ≤ r.last ∧
        ∃ c ∈ captures, c.isDefinition ∧ c.span = r ∧ minLines ≤ r.size := by
  intro outline
  by_cases hmin : 1 ≤ minLines
  · have hnot : ¬minLines < 1 := Int.not_lt.mpr hmin
    rcases synthesize_cases captures lines hmin test with
      ⟨ds, hds, hplaced, hlisted⟩ | ⟨herror, c, hc, hunplaced⟩
    · have hds : outline = .ok ds := hds
      rw [hds]
      refine ⟨by simp [hnot], ?_, ?_, by simp, ?_⟩
      · simp only [reduceCtorEq, false_and, exists_false, false_iff, not_and, not_exists]
        exact fun _ c hc hdefinition hsize hbefore => hplaced c hc ⟨hdefinition, hsize, hbefore⟩
      · refine iff_of_true ⟨ds, rfl⟩ ⟨hmin, fun c hc hdefinition hsize => ?_⟩
        exact Int.not_lt.mp fun hbefore => hplaced c hc ⟨hdefinition, hsize, hbefore⟩
      · rintro ds' heq r hr
        cases heq
        obtain ⟨c, hc, hdefinition, hspan, hsize⟩ := hlisted r hr
        have hordered : r.first ≤ r.last := by
          unfold LineRange.size at hsize
          omega
        exact ⟨hordered, c, hc, hdefinition, hspan, hsize⟩
    · have herror : outline = .error .noSuchLine := herror
      rw [herror]
      refine ⟨?_, iff_of_true ⟨_, rfl, rfl⟩ ⟨hmin, c, hc, hunplaced⟩, ?_, by simp, by simp⟩
      · simp [hnot, SynthesisError.fault, SynthesisError.trouble, Trouble.fault, Fault.badIndex]
      · refine iff_of_false (by simp) ?_
        rintro ⟨-, hall⟩
        obtain ⟨hdefinition, hsize, hbefore⟩ := hunplaced
        exact Int.not_lt.mpr (hall c hc hdefinition hsize) hbefore
  · have hlt : minLines < 1 := Int.not_le.mp hmin
    have herror : outline = .error (.minLines minLines) := if_pos hlt
    rw [herror]
    refine ⟨iff_of_true ⟨_, rfl, rfl⟩ hlt, ?_, by simp [hmin], by simp, by simp⟩
    simp [hmin, SynthesisError.fault, SynthesisError.trouble, Trouble.fault, Fault.badValue]

def looseDefinition (first last : Int) : Capture :=
  ⟨"definition.function", ⟨first, last⟩, none, none⟩

/-- Of two lines: one that counts from the end, one past the end and a range that ends before it
starts are no hindrance, but one before the first line is. -/
theorem outline_refused_exactly_stray :
    let stray := [looseDefinition (-1) 0, looseDefinition 7 9, looseDefinition 3 0]
    (∃ ds, synthesize stray ["a", "b"] 1 (.total fun _ => false) = .ok ds ∧
      ⟨3, 0⟩ ∉ listedRanges ds) ∧
      ∃ e, synthesize (looseDefinition (-3) 0 :: stray) ["a", "b"] 1 (.total fun _ => false) =
        .error e ∧ e.fault.kind = "IndexError" := by
  intro stray
  obtain ⟨-, -, hreturns, -, hlisted⟩ := outline_refused_exactly stray ["a", "b"] 1 fun _ => false
  obtain ⟨-, hrefused, -⟩ :=
    outline_refused_exactly (looseDefinition (-3) 0 :: stray) ["a", "b"] 1 fun _ => false
  obtain ⟨ds, hds⟩ := hreturns.mpr ⟨by decide, by decide +kernel⟩
  refine ⟨⟨ds, hds, fun hmem => ?_⟩, hrefused.mpr ⟨by decide, _, .head _, by decide +kernel⟩⟩
  exact absurd (hlisted ds hds _ hmem).1 (by decide)

end SourceOutline
