import SourceOutline.Proofs.Outline.Survivors

/-! Outlines of one file at different least numbers of lines. Short captures are dropped before
anything else is done with the rest, and dropping them commutes with all of it: sorting is stable, a
range keeps out only itself, and the line test looks at one candidate at a time. So a higher number
shows in the outline as a filter and as nothing else. -/
namespace SourceOutline

variable {m m' : Int}

theorem Definition.entry_injective : Function.Injective Definition.entry := by
  intro a b h
  cases a
  cases b
  cases h
  rfl

theorem Capture.filter_candidate? (hle : m ≤ m') (c : Capture) :
    (c.candidate? m).filter (fun d => decide (m' ≤ d.range.size)) = c.candidate? m' := by
  unfold Capture.candidate?
  by_cases hlong : m' ≤ c.span.size
  · have hshort : m ≤ c.span.size := by omega
    cases c.isDefinition <;> simp [hlong, hshort]
  · rw [decide_eq_false hlong, Bool.and_false]
    split
    · rw [Option.filter_some, decide_eq_false hlong]
    · rfl

theorem candidates_of_le (captures : List Capture) (hle : m ≤ m') :
    candidates m' captures = (candidates m captures).filter fun c =>
      decide (m' ≤ c.range.size) := by
  rw [filter_candidates, List.filter_filterMap]
  simp only [Capture.filter_candidate? hle]
  rfl

/-- With a higher least number of lines an outline has those of its definitions, in order and under
their labels, that have as many lines; it loses the others and gains none. -/
theorem higher_minLines_filters (captures : List Capture) (lines : List String)
    (test : String → Bool) (m m' : Int) (hmin : 1 ≤ m) (hle : m ≤ m')
    (hstart : ∀ c ∈ captures, 0 ≤ c.span.first) :
    ∃ ds ds', synthesize captures lines m (.total test) = .ok ds ∧
      synthesize captures lines m' (.total test) = .ok ds' ∧
      ds'.getD [] = (ds.getD []).filter fun d => decide (m' ≤ d.lineCount) := by
  obtain ⟨ds, hds, -, hentries⟩ := synthesize_entries captures lines hmin test hstart
  obtain ⟨ds', hds', -, hentries'⟩ :=
    synthesize_entries captures lines (Int.le_trans hmin hle) test hstart
  refine ⟨ds, ds', hds, hds', ?_⟩
  apply List.map_injective_iff.mpr Definition.entry_injective
  have hranges : chosen lines test [] (candidates m' captures) =
      (chosen lines test [] (candidates m captures)).filter fun r => decide (m' ≤ r.size) := by
    rw [candidates_of_le captures hle, filter_chosen _ fun _ _ => Iff.rfl]
  have hfilter : (fun d : Definition => decide (m' ≤ d.lineCount)) =
      (fun e : LineRange × String => decide (m' ≤ e.1.size)) ∘ Definition.entry := rfl
  rw [hentries', hranges, hfilter, ← List.filter_map, hentries, List.filter_map]
  rfl

/-- Two names and a block that is left out start on one line, and the block stands on the lines of
the second name; one range is too short for the higher number. -/
theorem higher_minLines_filters_ties :
    let lines := ["<div>", "", "  fn f", "end"]
    let captures : List Capture :=
      [⟨"definition.element", ⟨0, 3⟩, none, none⟩,
        ⟨"name.definition.g", ⟨1, 1⟩, none, some ⟨⟨1, 1⟩, some ⟨0, 5⟩⟩⟩,
       ⟨"definition.f", ⟨2, 3⟩, none, none⟩,
         ⟨"name.definition.f", ⟨1, 1⟩, none, some ⟨⟨1, 1⟩, some ⟨0, 3⟩⟩⟩]
    (1 : Int) ≤ 2 ∧ (2 : Int) ≤ 3 ∧ (∀ c ∈ captures, 0 ≤ c.span.first) ∧
      ∃ ds ds', synthesize captures lines 2 (.total (· == "<div>")) = .ok ds ∧
        synthesize captures lines 3 (.total (· == "<div>")) = .ok ds' ∧
        ds'.getD [] = (ds.getD []).filter fun d => decide (3 ≤ d.lineCount) := by
  intro lines captures
  have hstart : ∀ c ∈ captures, 0 ≤ c.span.first := by decide +kernel
  refine ⟨by decide, by decide, hstart, ?_⟩
  exact higher_minLines_filters captures lines (· == "<div>") 2 3 (by decide) (by decide) hstart

end SourceOutline
