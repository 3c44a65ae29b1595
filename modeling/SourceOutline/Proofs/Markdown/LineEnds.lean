import Mathlib.Data.List.Forall2
import SourceOutline.Proofs.Markdown.Hidden
import SourceOutline.Proofs.Text.Lines

/-! Blanks at the ends of lines. Marks are never blank, so a run of marks ends where it ended
before; what comes after it is asked only whether something other than blanks is there, and metadata
is read from trimmed lines. So blanks that are added to the ends of lines show nowhere, and the
carriage returns of another line ending are such blanks. -/
namespace SourceOutline

theorem Markdown.fence?_of_allBlank {cs : List Char} (h : Text.allBlank cs) : fence? cs = none := by
  rw [Option.eq_none_iff_forall_ne_some]
  intro kind hkind
  rcases mem_of_fence? hkind with hmark | hmark
  · exact absurd (List.all_eq_true.mp h _ hmark) (by decide)
  · exact absurd (List.all_eq_true.mp h _ hmark) (by decide)

section Blanks

variable {blanks : List Char} (hblanks : Text.allBlank blanks)

include hblanks

theorem Text.allBlank_append_blanks (cs : List Char) : allBlank (cs ++ blanks) = allBlank cs := by
  unfold allBlank at hblanks ⊢
  rw [List.all_append, hblanks, Bool.and_true]

theorem Text.trimChars_append_blanks (cs : List Char) :
    trimChars (cs ++ blanks) = trimChars cs := by
  have hall : ∀ c ∈ blanks, isBlank c := List.all_eq_true.mp hblanks
  unfold trimChars trimBy
  rw [List.dropWhile_append]
  split
  · rename_i hempty
    rw [List.isEmpty_iff.mp hempty, List.dropWhile_eq_nil_iff.mpr hall]
  · unfold dropRight
    rw [List.reverse_append,
      List.dropWhile_append_of_pos fun c hc => hall c (List.mem_reverse.mp hc)]

namespace Markdown

theorem head?_ne_of_blanks {c : Char} (hc : Text.isBlank c = false) : blanks.head? ≠ some c := by
  intro hhead
  have hblank := List.all_eq_true.mp hblanks c (List.mem_of_head? hhead)
  rw [hc] at hblank
  cases hblank

theorem run_append_blanks {c : Char} (hc : Text.isBlank c = false) (cs : List Char) :
    runLength c (cs ++ blanks) = runLength c cs ∧
      (cs ++ blanks).drop (runLength c cs) = cs.drop (runLength c cs) ++ blanks := by
  obtain ⟨rest, hcs, hhead, hdrop⟩ := exists_run c cs
  have hrest : (rest ++ blanks).head? ≠ some c := by
    cases rest with
    | nil => exact head?_ne_of_blanks hblanks hc
    | cons d rest => exact hhead
  have hsplit : cs ++ blanks = List.replicate (runLength c cs) c ++ (rest ++ blanks) := by
    rw [← List.append_assoc, ← hcs]
  rw [hdrop, hsplit]
  exact ⟨runLength_replicate_append hrest, drop_replicate_append⟩

theorem fenceOf?_append_blanks {mark : Char} (hmark : Text.isBlank mark = false) {cs : List Char}
    (hcs : '\n' ∉ cs) (hfeed : '\n' ∉ blanks) :
    fenceOf? mark (cs ++ blanks) = fenceOf? mark cs := by
  obtain ⟨hrun, hdrop⟩ := run_append_blanks hblanks hmark cs
  have hrest : '\n' ∉ cs.drop (runLength mark cs) := fun hmem => hcs (List.mem_of_mem_drop hmem)
  unfold fenceOf?
  dsimp only
  rw [hrun, hdrop, fenceRest?_of_not_mem hrest, fenceRest?_of_not_mem (by simp [hrest, hfeed]),
    Option.map_some, Option.map_some, Text.allBlank_append_blanks hblanks]

/-- Spaces are blanks too: behind nothing but spaces the blanks would go on with the indent, but
then there is no fence. -/
theorem fence?_append_blanks {cs : List Char} (hcs : '\n' ∉ cs) (hfeed : '\n' ∉ blanks) :
    fence? (cs ++ blanks) = fence? cs := by
  obtain ⟨rest, hindent, hhead, hdrop⟩ := exists_run ' ' cs
  cases rest with
  | nil =>
    have hblank : Text.allBlank cs := by
      refine List.all_eq_true.mpr fun c hc => ?_
      rw [hindent, List.append_nil] at hc
      rw [List.eq_of_mem_replicate hc]
      rfl
    have hlonger := Text.allBlank_append_blanks hblanks cs
    rw [fence?_of_allBlank hblank, fence?_of_allBlank (hlonger.trans hblank)]
  | cons c rest =>
    have hsplit : cs ++ blanks = List.replicate (runLength ' ' cs)
        ' ' ++ (c :: rest ++ blanks) := by
      rw [← List.append_assoc, ← hindent]
    have hrun : runLength ' ' (cs ++ blanks) = runLength ' ' cs := by
      rw [hsplit]
      exact runLength_replicate_append hhead
    have hlonger : (cs ++ blanks).drop (runLength ' ' cs) = c :: rest ++ blanks := by
      rw [hsplit]
      exact drop_replicate_append
    have htail : '\n' ∉ c :: rest := fun hmem => hcs (hindent ▸ List.mem_append_right _ hmem)
    unfold fence?
    dsimp only
    rw [hrun, hlonger, hdrop, fenceOf?_append_blanks hblanks (by decide) htail hfeed,
      fenceOf?_append_blanks hblanks (by decide) htail hfeed]

theorem hashes?_append_blanks (cs : List Char) : hashes? (cs ++ blanks) = hashes? cs := by
  obtain ⟨hrun, hdrop⟩ := run_append_blanks hblanks (c := '#') (by decide) cs
  unfold hashes?
  dsimp only
  rw [hrun, hdrop, Text.allBlank_append_blanks hblanks]
  cases cs.drop (runLength '#' cs) with
  | nil => simp [Text.allBlank]
  | cons c rest => rfl

theorem underlineOf?_append_blanks {mark : Char} (hmark : Text.isBlank mark = false) (level : Nat)
    (cs : List Char) : underlineOf? mark level (cs ++ blanks) = underlineOf? mark level cs := by
  obtain ⟨hrun, hdrop⟩ := run_append_blanks hblanks hmark cs
  unfold underlineOf?
  dsimp only
  rw [hrun, hdrop, Text.allBlank_append_blanks hblanks]

theorem ofChars_append_blanks {cs : List Char} (hcs : '\n' ∉ cs) (hfeed : '\n' ∉ blanks) :
    LineKind.ofChars (cs ++ blanks) = LineKind.ofChars cs := by
  unfold LineKind.ofChars underline?
  rw [fence?_append_blanks hblanks hcs hfeed, hashes?_append_blanks hblanks,
    underlineOf?_append_blanks hblanks (by decide),
    underlineOf?_append_blanks hblanks (by decide), Text.allBlank_append_blanks hblanks]

end Markdown

end Blanks

namespace Markdown

/-- The second line is the first with blanks at its end. -/
def Padded (line line' : String) : Prop :=
  ∃ blanks : String, line' = line ++ blanks ∧ Text.allBlank blanks.toList ∧ '\n' ∉ blanks.toList

theorem Padded.trimChars {line line' : String} (h : Padded line line') :
    Text.trimChars line.toList = Text.trimChars line'.toList := by
  obtain ⟨blanks, rfl, hblanks, -⟩ := h
  rw [String.toList_append, Text.trimChars_append_blanks hblanks]

theorem Padded.ofChars {line line' : String} (h : Padded line line') (hline : '\n' ∉ line.toList) :
    LineKind.ofChars line.toList = LineKind.ofChars line'.toList := by
  obtain ⟨blanks, rfl, hblanks, hfeed⟩ := h
  rw [String.toList_append, ofChars_append_blanks hblanks hline hfeed]

theorem contentStart_congr {lines lines' : List (List Char)}
    (h : lines.map Text.trimChars = lines'.map Text.trimChars) :
    contentStart lines = contentStart lines' := by
  have hmetadata : ∀ {rest rest' : List (List Char)},
      rest.map Text.trimChars = rest'.map Text.trimChars →
      metadataSize rest = metadataSize rest' := by
    intro rest rest' h
    have hlength : rest.length = rest'.length := by simpa using congrArg List.length h
    have hbefore :=
      congrArg
        (fun ls => (ls.takeWhile fun l => l != ['-', '-', '-'] && l != ['.', '.', '.']).length) h
    simp only [List.takeWhile_map, List.length_map] at hbefore
    unfold metadataSize
    dsimp only
    rw [hlength]
    exact hbefore ▸ rfl
  cases lines with
  | nil =>
    cases lines' with
    | nil => rfl
    | cons first' rest' => cases h
  | cons first rest =>
    cases lines' with
    | nil => cases h
    | cons first' rest' =>
      obtain ⟨hfirst, hrest⟩ := List.cons.inj h
      rw [contentStart, contentStart, hfirst, hmetadata hrest]

variable {lines lines' : List String} (hlines : ∀ line ∈ lines, '\n' ∉ line.toList)
  (hpadded : List.Forall₂ Padded lines lines')

include hpadded in
theorem map_trimChars_padded :
    (lines.map String.toList).map Text.trimChars = (lines'.map String.toList).map
      Text.trimChars := by
  induction hpadded with
  | nil => rfl
  | cons hline _ ih => simp only [List.map_cons, hline.trimChars, ih]

include hlines hpadded in
theorem kindsOf_padded : kindsOf lines = kindsOf lines' := by
  induction hpadded with
  | nil => rfl
  | cons hline _ ih =>
    obtain ⟨hfirst, hrest⟩ := List.forall_mem_cons.mp hlines
    have hrest := ih hrest
    unfold kindsOf at hrest ⊢
    rw [List.map_cons, List.map_cons, hline.ofChars hfirst, hrest]

include hlines hpadded in
theorem headings_padded : headings lines = headings lines' := by
  rw [headings_eq, headings_eq, contentStart_congr (map_trimChars_padded hpadded),
    kindsOf_padded hlines hpadded]

include hpadded in
theorem trim_getD_padded (i : Nat) :
    Text.trim (lines.getD i "") = Text.trim (lines'.getD i "") := by
  induction hpadded generalizing i with
  | nil => rfl
  | cons hline _ ih =>
    cases i with
    | zero => exact congrArg String.ofList hline.trimChars
    | succ i => exact ih i

include hlines hpadded in
theorem indistinct_of_padded : Indistinct lines lines' := by
  apply indistinct_of_titles hpadded.length_eq (headings_padded hlines hpadded)
  intro h _
  exact trim_getD_padded hpadded _

theorem padded_withReturns (text : String) :
    List.Forall₂ Padded (Text.lines text) (Text.lines (Text.withReturns text)) := by
  obtain ⟨before, last, hlines, hreturns⟩ := Text.lines_withReturns text
  rw [hlines, hreturns]
  apply List.rel_append
  · rw [List.forall₂_map_right_iff, List.forall₂_same]
    exact fun line _ => ⟨"\r", rfl, by decide, by decide⟩
  · rw [List.forall₂_same]
    exact fun line _ => ⟨"", String.append_empty.symm, rfl, by decide⟩

/-- Blanks at the ends of lines change no heading; so a text has the same captures and the same
outlines when its lines end with a carriage return before the line feed. -/
theorem line_ends_without_influence :
    (∀ lines lines' : List String, (∀ line ∈ lines, '\n' ∉ line.toList) →
      List.Forall₂ Padded lines lines' → headings lines' = headings lines) ∧
    ∀ text, captures (Text.withReturns text) = captures text ∧
      ∀ minLines : Int, 1 ≤ minLines → ∀ test : String → Bool, ∃ ds,
        synthesize (captures text) (Text.lines text) minLines (.total test) = .ok ds ∧
          synthesize (captures (Text.withReturns text)) (Text.lines (Text.withReturns text))
            minLines (.total test) = .ok ds := by
  refine ⟨fun lines lines' hlines hpadded => (headings_padded hlines hpadded).symm, fun text => ?_⟩
  have hsame : Indistinct (Text.lines text) (Text.lines (Text.withReturns text)) :=
    indistinct_of_padded (fun _ => Text.feed_notMem_lines) (padded_withReturns text)
  refine ⟨(hsame.sameCaptures _ _ rfl rfl).symm, fun minLines hmin test => ?_⟩
  obtain ⟨ds, hds, -⟩ := synthesize_captures text hmin test
  exact ⟨_, hds, (hsame.sameOutlines _ _ rfl rfl minLines (.total test)).symm.trans hds⟩

/-- Blanks of several sorts after metadata, an underline, both fences of a block and a line of
nothing but spaces. -/
theorem line_ends_without_influence_mixed :
    let lines := ["---", "key: value", "...", "Title", "===", "```", "# no", "```", "   ", "# Yes"]
    let lines' := ["--- ", "key: value", "...\r", "Title\t", "===\u00a0", "```\u2003", "# no",
      "``` \r", "      ", "# Yes\u3000"]
    (∀ line ∈ lines, '\n' ∉ line.toList) ∧ List.Forall₂ Padded lines lines' ∧
      headings lines' = headings lines ∧ headings lines = [⟨3, 1⟩, ⟨9, 1⟩] ∧ (1 : Int) ≤ 2 ∧
      ∃ ds, synthesize (captures "Title\r\n===\r\nwords") ["Title\r", "===\r", "words"] 2
        (.total fun _ => false) = .ok ds ∧
        synthesize (captures "Title\n===\nwords") ["Title", "===", "words"] 2
          (.total fun _ => false) = .ok ds := by
  intro lines lines'
  have hlines : ∀ line ∈ lines, '\n' ∉ line.toList := by decide +kernel
  have hblanks : ∀ blanks ∈ ["", " ", "\r", "\t", "\u00a0", "\u2003", " \r", "   ", "\u3000"],
      Text.allBlank blanks.toList ∧ '\n' ∉ blanks.toList := by decide +kernel
  have hpad : ∀ line blanks : String,
      blanks ∈ ["", " ", "\r", "\t", "\u00a0", "\u2003", " \r", "   ", "\u3000"] →
      Padded line (line ++ blanks) := fun line blanks h => ⟨blanks, rfl, hblanks blanks h⟩
  have hpadded : List.Forall₂ Padded lines lines' :=
    .cons (hpad "---" " " (by decide)) <| .cons (hpad "key: value" "" (by decide)) <|
      .cons (hpad "..." "\r" (by decide)) <|
    .cons (hpad "Title" "\t" (by decide)) <| .cons (hpad "===" "\u00a0" (by decide)) <|
    .cons (hpad "```" "\u2003" (by decide)) <| .cons (hpad "# no" "" (by decide)) <|
      .cons (hpad "```" " \r" (by decide)) <|
    .cons (hpad "   " "   " (by decide)) <| .cons (hpad "# Yes" "\u3000" (by decide)) .nil
  have hends := line_ends_without_influence.2 "Title\n===\nwords"
  obtain ⟨ds, hfeeds, hreturns⟩ := hends.2 2 (by decide) fun _ => false
  exact ⟨hlines, hpadded,
    line_ends_without_influence.1 lines lines' hlines hpadded, by decide +kernel, by
      decide, ds, hreturns,
    hfeeds⟩

end Markdown

end SourceOutline
