import SourceOutline.Markdown.Section
import SourceOutline.Proofs.Markdown.Headings
import SourceOutline.Proofs.Outline.Listing

/-! The outline of Markdown text, from the headings alone. A section is described here by the
headings of the whole document, not by those that are left when the scan reaches it; the two agree
because headings come in the order of their lines. -/
namespace SourceOutline.Markdown

/-- Whether heading `k` ends the section that `h` opens: it stands later and has the same or a
higher rank. -/
def Heading.closedBy (h k : Heading) : Bool :=
  decide (h.line < k.line) && decide (k.level ≤ h.level)

/-- The section of a heading: up to the line before the first heading that ends it, or to the line
`last`. -/
def Heading.sectionIn (all : List Heading) (last : Int) (h : Heading) : LineRange :=
  ⟨h.line, match all.find? h.closedBy with
    | some k => k.line - 1
    | none => last⟩

theorem find?_closedBy {before following : List Heading} {h : Heading}
    (hordered : (before ++ h :: following).Pairwise (fun a b => a.line < b.line)) :
    (before ++ h :: following).find? h.closedBy = following.find?
      (fun k => decide (k.level ≤ h.level)) := by
  obtain ⟨-, hfrom, hacross⟩ := List.pairwise_append.mp hordered
  have hbefore : before.find? h.closedBy = none := by
    rw [List.find?_eq_none]
    intro k hk
    have hlt := hacross k hk h (.head _)
    simp [Heading.closedBy, Nat.not_lt.mpr (Nat.le_of_lt hlt)]
  have hself : h.closedBy h = false := by simp [Heading.closedBy]
  have hafter : ∀ k ∈ following, h.closedBy k = decide (k.level ≤ h.level) := by
    intro k hk
    simp [Heading.closedBy, (List.pairwise_cons.mp hfrom).1 k hk]
  rw [List.find?_append, hbefore, Option.none_or, List.find?_cons, hself]
  rw [← List.head?_filter, ← List.head?_filter, List.filter_congr hafter]

theorem sections_eq_map (last : Int) (before hs : List Heading)
    (hordered : (before ++ hs).Pairwise (fun a b => a.line < b.line)) :
    sections last hs = hs.map (Heading.sectionIn (before ++ hs) last) := by
  -- The headings before stay in view, so that the whole list is the same at every heading.
  induction hs generalizing before with
  | nil => rfl
  | cons h hs ih =>
    have hrest := ih (before ++ [h]) (by simpa using hordered)
    rw [List.append_assoc, List.singleton_append] at hrest
    rw [sections, List.map_cons, hrest, Heading.sectionIn, find?_closedBy hordered]
    rfl

/-- The section of a heading in the text with these lines. -/
def sectionOf (lines : List String) (h : Heading) : LineRange :=
  h.sectionIn (headings lines) (lines.length - 1)

theorem line_lt_of_mem_headings {lines : List String} {h : Heading} (hh : h ∈ headings lines) :
    h.line < lines.length := by
  obtain ⟨line, hline, -⟩ := exists_title_of_mem_headings hh
  exact (List.getElem?_eq_some_iff.mp hline).1

theorem titleAt_ne_empty {lines : List String} {h : Heading} (hh : h ∈ headings lines) :
    titleAt lines h.line ≠ "" := by
  obtain ⟨line, hline, htitle⟩ := exists_title_of_mem_headings hh
  unfold titleAt
  rwa [Int.toNat_natCast, List.getD_eq_getElem?_getD, hline]

theorem sectionOf_bounds {lines : List String} {h : Heading} (hh : h ∈ headings lines) :
    h.line ≤ (sectionOf lines h).last ∧ (sectionOf lines h).last < lines.length := by
  have hline := line_lt_of_mem_headings hh
  unfold sectionOf Heading.sectionIn
  cases hnext : (headings lines).find? h.closedBy with
  | none =>
    dsimp only
    omega
  | some k =>
    have hk := line_lt_of_mem_headings (List.mem_of_find?_eq_some hnext)
    have hclosed := List.find?_some hnext
    simp only [Heading.closedBy, Bool.and_eq_true, decide_eq_true_eq] at hclosed
    dsimp only
    omega

theorem captures_eq_map (text : String) :
    captures text = (headings (Text.lines text)).map fun h =>
      ⟨sectionTag, sectionOf (Text.lines text) h, none, none⟩ := by
  unfold captures
  dsimp only
  rw [sections_eq_map _ [] _ (by simpa using (headings_spec _).1), List.map_map]
  apply List.map_congr_left
  intro h hh
  have hpos : 1 ≤ (Text.lines text).length := by
    have hline := line_lt_of_mem_headings hh
    omega
  have hlast : (((Text.lines text).length - 1 : Nat) : Int) = (Text.lines text).length - 1 := by
    omega
  rw [Function.comp_apply, List.nil_append, hlast]
  rfl

theorem candidate?_section (minLines : Int) (range : LineRange) :
    Capture.candidate? minLines ⟨sectionTag, range, none, none⟩ =
      if minLines ≤ range.size then some ⟨range, false⟩ else none := by
  have hdefinition : Text.contains sectionTag "definition" = true := by decide +kernel
  have hname : Text.contains sectionTag "name.definition" = false := by decide +kernel
  by_cases hsize : minLines ≤ range.size <;>
    simp [Capture.candidate?, Capture.isDefinition, Capture.isName, Capture.span,
      hdefinition, hname, hsize]

theorem candidates_captures (text : String) (minLines : Int) :
    candidates minLines (captures text) =
      ((headings (Text.lines text)).filter fun h =>
        decide (minLines ≤ (sectionOf (Text.lines text) h).size)).map
        fun h => ⟨sectionOf (Text.lines text) h, false⟩ := by
  have hordered := (headings_spec (Text.lines text)).1
  unfold candidates
  rw [captures_eq_map, List.filterMap_map]
  have hlong :
      (Capture.candidate? minLines ∘ fun h =>
    ⟨sectionTag, sectionOf (Text.lines text) h, none, none⟩) =
      fun h => if decide (minLines ≤ (sectionOf (Text.lines text) h).size) then
        (some ∘ fun h => (⟨sectionOf (Text.lines text) h, false⟩ : Candidate)) h else none := by
    funext h
    simp [candidate?_section]
  rw [hlong, ← List.filterMap_filter, List.filterMap_eq_map]
  apply List.mergeSort_of_pairwise
  rw [List.pairwise_map]
  refine (hordered.filter _).imp fun {a b} hab => ?_
  have hle : (a.line : Int) ≤ b.line := by omega
  simpa [sectionOf, Heading.sectionIn] using hle

/-- The headings that an outline lists: their section has enough lines, and their text does not pass
the test. -/
def listed (lines : List String) (minLines : Int) (test : String → Bool) : List Heading :=
  (headings lines).filter fun h =>
    decide (minLines ≤ (sectionOf lines h).size) && !test (titleAt lines h.line)

theorem synthesize_captures (text : String) {minLines : Int} (hmin : 1 ≤ minLines)
    (test : String → Bool) :
    ∃ ds, synthesize (captures text) (Text.lines text) minLines (.total test) =
      .ok (if ds = [] then none else some ds) ∧
      ds.map Definition.entry = (listed (Text.lines text) minLines test).map
        fun h => (sectionOf (Text.lines text) h, titleAt (Text.lines text) h.line) := by
  have hordered := (headings_spec (Text.lines text)).1
  have hvalid : ∀ c ∈ candidates minLines (captures text), 0 ≤ c.range.first ∧
      c.range.first ≤ c.range.last := by
    rw [candidates_captures]
    intro c hc
    obtain ⟨h, hh, rfl⟩ := List.mem_map.mp hc
    exact ⟨Int.natCast_nonneg _, (sectionOf_bounds (List.mem_filter.mp hh).1).1⟩
  have hnodup : ((candidates minLines (captures text)).map (·.range)).Nodup := by
    rw [candidates_captures, List.map_map, List.Nodup, List.pairwise_map]
    refine (hordered.filter _).imp fun {a b} hab heq => ?_
    have hfirst : (a.line : Int) = b.line := congrArg LineRange.first heq
    omega
  obtain ⟨ds, hds, hentries⟩ :=
    synthesize_total (captures text) (Text.lines text) hmin test hvalid hnodup
  refine ⟨ds, hds, ?_⟩
  rw [hentries, candidates_captures, List.filter_map, List.map_map, List.filter_filter]
  unfold listed
  refine congrArg (List.map _) (List.filter_congr fun h _ => ?_)
  simp [Bool.and_comm, sectionOf, Heading.sectionIn]

/-- An outline of Markdown text lists the headings with enough lines whose text does not pass the
test, each with its section and its trimmed line, in the order of the document; there is none
exactly when no heading is listed. -/
theorem markdown_outline (text : String) (minLines : Int) (hmin : 1 ≤ minLines)
    (test : String → Bool) :
    ∃ ds, synthesize (captures text) (Text.lines text) minLines (.total test) =
        .ok (if listed (Text.lines text) minLines test = [] then none else some ds) ∧
      ds.map Definition.entry = (listed (Text.lines text) minLines test).map
        (fun h => (sectionOf (Text.lines text) h, titleAt (Text.lines text) h.line)) ∧
      ds.Pairwise (fun a b => a.range.first < b.range.first) ∧
      ∀ d ∈ ds, 0 ≤ d.range.first ∧ d.range.first ≤ d.range.last ∧
        d.range.last < (Text.lines text).length ∧ d.label ≠ "" := by
  obtain ⟨ds, hds, hentries⟩ := synthesize_captures text hmin test
  have hordered : (listed (Text.lines text) minLines test).Pairwise (fun a b => a.line < b.line) :=
    (headings_spec (Text.lines text)).1.filter _
  have hempty : ds = [] ↔ listed (Text.lines text) minLines test = [] := by
    rw [← List.map_eq_nil_iff, hentries, List.map_eq_nil_iff]
  have hentry : ∀ d ∈ ds, ∃ h ∈ headings (Text.lines text),
      d.range = sectionOf (Text.lines text) h ∧ d.label = titleAt (Text.lines text) h.line := by
    intro d hd
    have hmem : d.entry ∈ ds.map Definition.entry := List.mem_map_of_mem hd
    rw [hentries] at hmem
    obtain ⟨h, hh, heq⟩ := List.mem_map.mp hmem
    exact ⟨h, (List.mem_filter.mp hh).1, (congrArg Prod.fst heq).symm, (congrArg Prod.snd heq).symm⟩
  refine ⟨ds, ?_, hentries, ?_, fun d hd => ?_⟩
  · simpa only [hempty] using hds
  · have hfirsts : (ds.map Definition.entry).Pairwise (fun a b => a.1.first < b.1.first) := by
      rw [hentries, List.pairwise_map]
      exact hordered.imp fun hlt => Int.ofNat_lt.mpr hlt
    rw [List.pairwise_map] at hfirsts
    exact hfirsts
  · obtain ⟨h, hh, hrange, hlabel⟩ := hentry d hd
    obtain ⟨hfirst, hlast⟩ := sectionOf_bounds hh
    rw [hrange, hlabel]
    exact ⟨Int.natCast_nonneg _, hfirst, hlast, titleAt_ne_empty hh⟩

/-- A section inside another, an underlined heading and one that the test leaves out. -/
theorem markdown_outline_nested :
    let text := "# Top\n\nPart\n----\nwords\n# Skip\nmore\n# End"
    (1 : Int) ≤ 2 ∧
      ∃ ds, synthesize (captures text) (Text.lines text) 2 (.total (· == "# Skip")) =
      .ok (some ds) ∧ ds.map Definition.entry = [(⟨0, 4⟩, "# Top"), (⟨2, 4⟩, "Part")] := by
  refine ⟨by decide, ?_⟩
  obtain ⟨ds, hds, hentries, -⟩ :=
    markdown_outline "# Top\n\nPart\n----\nwords\n# Skip\nmore\n# End" 2 (by decide) (· == "# Skip")
  refine ⟨ds, ?_, ?_⟩
  · rw [hds, if_neg (by decide +kernel)]
  · rw [hentries]
    decide +kernel

end SourceOutline.Markdown
