import Mathlib.Data.Finset.Basic
import SourceOutline.Proofs.Outline.Spans

/-! The definitions of an outline as a set. Which they are depends on no more than the set of
candidates: a block that is left out stays open to a name on the same lines, and a range that was
listed keeps out only itself. So captures put together list what either part lists. -/
namespace SourceOutline

variable {lines : List String} {test : String → Bool} {minLines : Int} {captures : List Capture}

theorem labelAt_of_before {n : Int} (h : n + lines.length < 0) :
    labelAt lines n = .error .noSuchLine := by
  have hlt : n < lines.length := by omega
  have hnegative : n < 0 := by omega
  simp [labelAt, lineAt, hlt, hnegative, h, Except.map]

section Listing

variable {seen : List LineRange} {cs : List Candidate} {ds : List Definition}
  (hordered : ∀ c ∈ cs, c.range.first ≤ c.range.last)
  (h : listing lines (.total test) seen cs = .ok ds)

include hordered h

theorem line_of_listing : ∀ c ∈ cs, c.range ∉ seen → 0 ≤ c.range.first + lines.length := by
  induction cs generalizing seen ds with
  | nil => simp
  | cons c cs ih =>
    have hrest : ∀ c ∈ cs, c.range.first ≤ c.range.last := fun d hd => hordered d (.tail _ hd)
    obtain ⟨hseen, h⟩ | ⟨label, hnew, hlabel, hnext⟩ := listing_cons_ok (hordered c (.head _)) h
    · exact List.forall_mem_cons.mpr ⟨fun hnew => absurd hseen hnew, ih hrest h⟩
    · have hline : 0 ≤ c.range.first + lines.length := by
        by_contra hbefore
        rw [labelAt_of_before (by omega)] at hlabel
        cases hlabel
      refine List.forall_mem_cons.mpr ⟨fun _ => hline, fun b hb hb' => ?_⟩
      obtain ⟨-, h⟩ | ⟨-, more, h, -⟩ := hnext
      · exact ih hrest h b hb hb'
      · by_cases heq : b.range = c.range
        · rwa [heq]
        · exact ih hrest h b hb (by simp [heq, hb'])

theorem mem_listing : ∀ d, d ∈ ds ↔ d.range ∉ seen ∧ labelAt lines d.range.first = .ok d.label ∧
    ∃ c ∈ cs, c.range = d.range ∧ (c.named ∨ test d.label = false) := by
  induction cs generalizing seen ds with
  | nil =>
    cases h
    simp
  | cons c cs ih =>
    intro d
    have hrest : ∀ c ∈ cs, c.range.first ≤ c.range.last := fun d hd => hordered d (.tail _ hd)
    rw [List.exists_mem_cons_iff]
    obtain ⟨hseen, h⟩ | ⟨label, hnew, hlabel, hnext⟩ := listing_cons_ok (hordered c (.head _)) h
    · rw [ih hrest h]
      refine and_congr_right fun hd => and_congr_right fun _ => (or_iff_right ?_).symm
      rintro ⟨heq, -⟩
      exact hd (heq ▸ hseen)
    · simp only [Candidate.isInline_total, Except.ok.injEq] at hnext
      have hsame : ∀ {d : Definition}, c.range = d.range →
          labelAt lines d.range.first = .ok d.label → d.label = label := by
        intro d heq hd
        rw [← heq, hlabel] at hd
        exact (Except.ok.inj hd).symm
      obtain ⟨hskip, h⟩ | ⟨hkeep, more, hmore, rfl⟩ := hnext
      · rw [ih hrest h]
        refine and_congr_right fun _ => and_congr_right fun hd => (or_iff_right ?_).symm
        rintro ⟨heq, hkept⟩
        rw [hsame heq hd] at hkept
        simp_all
      · have hkept : c.named ∨ test label = false := by
          cases hnamed : c.named <;> simp_all
        rw [List.mem_cons, ih hrest hmore]
        constructor
        · rintro (rfl | ⟨hd, hother⟩)
          · exact ⟨hnew, hlabel, .inl ⟨rfl, hkept⟩⟩
          · exact ⟨fun hseen => hd (.tail _ hseen), hother.1, .inr hother.2⟩
        · rintro ⟨hd, htitle, hcandidate⟩
          by_cases heq : c.range = d.range
          · obtain ⟨range, label', _⟩ := d
            cases heq
            cases hsame rfl htitle
            exact .inl rfl
          · refine .inr ⟨by simp [Ne.symm heq, hd], htitle,
              hcandidate.resolve_left fun hc => heq hc.1⟩

end Listing

def recordsOf (ds : Option (List Definition)) : Finset Definition := (ds.getD []).toFinset

theorem synthesize_eq_listing (hmin : 1 ≤ minLines) (test : LineTest) :
    (synthesize captures lines minLines test).map recordsOf =
      (listing lines test [] (candidates minLines captures)).map List.toFinset := by
  rw [synthesize_of_le hmin]
  cases listing lines test [] (candidates minLines captures) with
  | error e => rfl
  | ok ds => simp only [Except.map, recordsOf, getD_listed]

theorem listing_candidates (captures : List Capture) (lines : List String) (hmin : 1 ≤ minLines)
    (test : String → Bool) :
    match listing lines (.total test) [] (candidates minLines captures) with
    | .error e =>
      e = .noSuchLine ∧ ∃ c ∈ candidates minLines captures, c.range.first + lines.length < 0
    | .ok ds => (∀ c ∈ candidates minLines captures, 0 ≤ c.range.first + lines.length) ∧
        ∀ d, d ∈ ds ↔ labelAt lines d.range.first = .ok d.label ∧
          ∃ c ∈ candidates minLines captures, c.range = d.range ∧
            (c.named ∨ test d.label = false) := by
  have hordered : ∀ c ∈ candidates minLines captures, c.range.first ≤ c.range.last :=
    ordered_of_mem_candidates hmin
  split
  · rename_i e he
    obtain ⟨line, fault, hfault, -⟩ | hline := listing_error hordered he
    · cases hfault
    · exact hline
  · rename_i ds hds
    refine ⟨fun c hc => line_of_listing hordered hds c hc (by simp), fun d => ?_⟩
    simpa using mem_listing hordered hds d

theorem mem_records {a : Finset Definition} (hmin : 1 ≤ minLines)
    (h : (synthesize captures lines minLines (.total test)).map recordsOf = .ok a)
    {d : Definition} :
    d ∈ a ↔ labelAt lines d.range.first = .ok d.label ∧
      ∃ c ∈ captures, c.isDefinition ∧ c.span = d.range ∧ minLines ≤ d.range.size ∧
        (c.isName ∨ test d.label = false) := by
  have hlisting := listing_candidates captures lines hmin test
  rw [synthesize_eq_listing hmin] at h
  split at hlisting
  · rename_i e he
    rw [he] at h
    cases h
  · rename_i ds hds
    rw [hds] at h
    cases h
    rw [List.mem_toFinset, hlisting.2]
    refine and_congr_right fun _ => ⟨?_, ?_⟩
    · rintro ⟨c, hc, hrange, hkept⟩
      obtain ⟨b, hb, hdefinition, hsize, rfl⟩ := mem_candidates.mp hc
      exact ⟨b, hb, hdefinition, hrange, hrange ▸ hsize, hkept⟩
    · rintro ⟨b, hb, hdefinition, hrange, hsize, hkept⟩
      exact ⟨⟨b.span, b.isName⟩, mem_candidates.mpr ⟨b, hb, hdefinition, hrange ▸ hsize, rfl⟩,
        hrange, hkept⟩

theorem records_of_union (hmin : 1 ≤ minLines) {left right : List Capture}
    (h : ∀ c, c ∈ captures ↔ c ∈ left ∨ c ∈ right) :
    (synthesize captures lines minLines (.total test)).map recordsOf =
      ((synthesize left lines minLines (.total test)).map recordsOf).bind fun a =>
        ((synthesize right lines minLines (.total test)).map recordsOf).map (a ∪ ·) := by
  have hcandidates : ∀ c, c ∈ candidates minLines captures ↔
      c ∈ candidates minLines left ∨ c ∈ candidates minLines right := by
    intro c
    simp only [mem_candidates, h, or_and_right, exists_or]
  have hwhole := listing_candidates captures lines hmin test
  have hleft := listing_candidates left lines hmin test
  have hright := listing_candidates right lines hmin test
  rw [synthesize_eq_listing hmin, synthesize_eq_listing hmin, synthesize_eq_listing hmin]
  generalize listing lines (.total test) [] (candidates minLines captures) = whole at hwhole
  generalize listing lines (.total test) [] (candidates minLines left) = left' at hleft
  generalize listing lines (.total test) [] (candidates minLines right) = right' at hright
  -- What the whole fails on is a candidate of one part, and what a part fails on is one of all.
  cases whole with
  | error e =>
    obtain ⟨rfl, c, hc, hbefore⟩ := hwhole
    cases left' with
    | error e' =>
      obtain ⟨rfl, -⟩ := hleft
      rfl
    | ok as =>
      cases right' with
      | error e' =>
        obtain ⟨rfl, -⟩ := hright
        rfl
      | ok bs =>
        rcases (hcandidates c).mp hc with hc | hc
        · exact absurd (hleft.1 c hc) (by omega)
        · exact absurd (hright.1 c hc) (by omega)
  | ok ds =>
    obtain ⟨hlines, hmem⟩ := hwhole
    cases left' with
    | error e' =>
      obtain ⟨-, c, hc, hbefore⟩ := hleft
      exact absurd (hlines c ((hcandidates c).mpr (.inl hc))) (by omega)
    | ok as =>
      cases right' with
      | error e' =>
        obtain ⟨-, c, hc, hbefore⟩ := hright
        exact absurd (hlines c ((hcandidates c).mpr (.inr hc))) (by omega)
      | ok bs =>
        refine congrArg Except.ok (Finset.ext fun d => ?_)
        simp only [Finset.mem_union, List.mem_toFinset, hmem, hleft.2, hright.2, hcandidates,
          or_and_right, exists_or]
        exact and_or_left

end SourceOutline
