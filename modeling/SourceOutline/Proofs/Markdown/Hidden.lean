import SourceOutline.Proofs.Markdown.Outline
import SourceOutline.Proofs.Markdown.Visibility
import SourceOutline.Proofs.Outline.Spans

/-! Lines that cannot influence an outline: the lines of a block of code and those of the metadata.
All that a scan takes with it from one line to the next is the open fence and whether the line above
is text. A line of a block that does not close it leaves both as they are, whatever it looks like,
and the scan starts after the metadata; so what follows is read as it would be after any other
hidden lines of the same number. -/
namespace SourceOutline.Markdown

section Scan

def ScanState.next (s : ScanState) (kind : LineKind) : ScanState := (s.step 0 kind).1

theorem ScanState.step_fst (s : ScanState) (line : Nat) (kind : LineKind) :
    (s.step line kind).1 = s.next kind := by
  obtain ⟨fence, text⟩ := s
  cases fence with
  | none =>
    cases kind with
    | underline level => cases text <;> rfl
    | _ => rfl
  | some opened =>
    cases kind with
    | fence f bare =>
      simp only [ScanState.next, ScanState.step]
    | _ => rfl

theorem headingsFrom_append (s : ScanState) (line : Nat) (kinds more : List LineKind) :
    headingsFrom s line (kinds ++ more) =
      headingsFrom s line kinds ++ headingsFrom (kinds.foldl ScanState.next s)
        (line + kinds.length) more := by
  induction kinds generalizing s line with
  | nil => rfl
  | cons kind kinds ih =>
    simp only [List.cons_append, headingsFrom, ScanState.step_fst, ih, List.foldl_cons,
      List.append_assoc, List.length_cons]
    congr 3
    omega

def stateAfter (lines : List String) : ScanState :=
  ((kindsOf lines).drop (contentLine lines)).foldl ScanState.next .start

/-- Whether a line is a fence that ends a block opened by `f`. -/
def endsBlock (f : Fence) (line : String) : Bool :=
  match LineKind.ofChars line.toList with
  | .fence g bare => f.closes g bare
  | _ => false

theorem ScanState.step_of_not_endsBlock {f : Fence} {line : String} (h : endsBlock f line = false)
    (n : Nat) :
    ScanState.step ⟨some f, false⟩ n (.ofChars line.toList) = (⟨some f, false⟩, none) := by
  unfold endsBlock at h
  generalize LineKind.ofChars line.toList = kind at h ⊢
  cases kind with
  | fence g bare => simp only [ScanState.step, h, Bool.false_eq_true, if_false]
  | _ => rfl

theorem headingsFrom_of_not_endsBlock {f : Fence} {body : List String}
    (h : ∀ line ∈ body, endsBlock f line = false) (n : Nat) (kinds : List LineKind) :
    headingsFrom ⟨some f, false⟩ n (kindsOf body ++ kinds) = headingsFrom ⟨some f, false⟩
      (n + body.length) kinds := by
  induction body generalizing n with
  | nil => rfl
  | cons line body ih =>
    have hrest := ih (fun l hl => h l (.tail _ hl)) (n + 1)
    simp only [kindsOf, List.map_cons, List.cons_append, headingsFrom,
      ScanState.step_of_not_endsBlock (h line (.head _))]
    rw [List.length_cons, Nat.add_comm body.length, ← Nat.add_assoc]
    exact hrest

theorem le_line_of_mem_headingsFrom {s : ScanState} (hs : s.text = false) {n : Nat}
    {kinds : List LineKind} {h : Heading} (hh : h ∈ headingsFrom s n kinds) : n ≤ h.line := by
  have hdrop : (List.replicate n LineKind.blank ++ kinds).drop n = kinds :=
    List.drop_left' List.length_replicate
  obtain ⟨-, hmem⟩ :=
    headingsFrom_ordered _ kinds (s := s) (by simp [ScanState.Consistent, hs]) hdrop (by simp [hs])
  have hopen := (hmem h hh).1
  rwa [ScanState.firstOpen, hs] at hopen

end Scan

section Metadata

def endsMetadata (line : String) : Bool := Text.trim line == "---" || Text.trim line == "..."

theorem trim_beq (line text : String) :
    (Text.trim line == text) = (Text.trimChars line.toList == text.toList) := by
  rw [Bool.eq_iff_iff, beq_iff_eq, beq_iff_eq, ← Text.toList_trim, String.toList_inj]

theorem not_endsMetadata (line : String) :
    (Text.trimChars line.toList != ['-', '-', '-'] &&
      Text.trimChars line.toList != ['.', '.', '.']) = !endsMetadata line := by
  simp only [endsMetadata, trim_beq, Bool.not_or]
  rfl

theorem metadataSize_of_ends {body rest : List String} {close : String}
    (hbody : ∀ line ∈ body, endsMetadata line = false) (hclose : endsMetadata close) :
    metadataSize ((body ++ close :: rest).map String.toList) = body.length + 2 := by
  unfold metadataSize
  rw [List.takeWhile_map, List.map_append, List.takeWhile_append_of_pos, List.takeWhile_cons_of_neg]
  · simp
  · simpa [not_endsMetadata] using hclose
  · intro line hline
    simpa [not_endsMetadata] using hbody line hline

theorem contentLine_cons (first : String) (lines : List String) : contentLine (first :: lines) =
    if Text.trim first = "---" then metadataSize (lines.map String.toList) else 0 := by
  have hfirst := trim_beq first "---"
  unfold contentLine
  rw [List.map_cons, contentStart]
  change (if (Text.trimChars first.toList == "---".toList) = true then _ else _) = _
  rw [← hfirst]
  simp only [beq_iff_eq]

theorem contentLine_of_metadata {first close : String} {body rest : List String}
    (hfirst : Text.trim first = "---") (hbody : ∀ line ∈ body, endsMetadata line = false)
    (hclose : endsMetadata close) :
    contentLine (first :: (body ++ close :: rest)) = body.length + 2 := by
  rw [contentLine_cons, if_pos hfirst, metadataSize_of_ends hbody hclose]

end Metadata

section FenceLine

variable {cs : List Char} {f : Fence} {bare : Bool}

theorem fence?_of_ofChars (h : LineKind.ofChars cs = .fence f bare) :
    fence? cs = some (.fence f bare) := by
  unfold LineKind.ofChars at h
  cases hfence : fence? cs with
  | some kind =>
    rw [hfence] at h
    exact congrArg some h
  | none =>
    rw [hfence, Option.none_or] at h
    cases hhashes : hashes? cs with
    | some kind =>
      obtain ⟨level, -, rfl⟩ := hashes?_eq_some_iff.mp hhashes
      rw [hhashes] at h
      cases h
    | none =>
      rw [hhashes, Option.none_or] at h
      cases hunderline : underline? cs with
      | some kind =>
        obtain ⟨level, -, rfl⟩ := underline?_eq_some_iff.mp hunderline
        rw [hunderline] at h
        cases h
      | none =>
        rw [hunderline, Option.getD_none] at h
        split at h <;> cases h

theorem mem_of_runLength {c : Char} (h : 3 ≤ runLength c cs) : c ∈ cs := by
  obtain ⟨rest, hcs, -, -⟩ := exists_run c cs
  rw [hcs]
  exact List.mem_append_left _ (List.mem_replicate.mpr ⟨by omega, rfl⟩)

theorem mem_of_fenceOf? {mark : Char} {kind : LineKind} (h : fenceOf? mark cs = some kind) :
    mark ∈ cs := by
  unfold fenceOf? at h
  dsimp only at h
  split at h
  · cases h
  · exact mem_of_runLength (by omega)

theorem mem_of_fence? {kind : LineKind} (h : fence? cs = some kind) : '\x60' ∈ cs ∨ '~' ∈ cs := by
  unfold fence? at h
  dsimp only at h
  split at h
  · cases h
  · rcases Option.or_eq_some_iff.mp h with h | ⟨-, h⟩
    · exact .inl (List.mem_of_mem_drop (mem_of_fenceOf? h))
    · exact .inr (List.mem_of_mem_drop (mem_of_fenceOf? h))

theorem mem_dropWhile {p : Char → Bool} {c : Char} (hc : c ∈ cs) (hp : p c = false) :
    c ∈ cs.dropWhile p := by
  rw [← List.takeWhile_append_dropWhile (p := p) (l := cs), List.mem_append] at hc
  rcases hc with hc | hc
  · rw [List.mem_takeWhile_imp hc] at hp
    cases hp
  · exact hc

theorem mem_trimChars {c : Char} (hc : c ∈ cs) (hblank : Text.isBlank c = false) :
    c ∈ Text.trimChars cs := by
  unfold Text.trimChars Text.trimBy Text.dropRight
  rw [List.mem_reverse]
  apply mem_dropWhile _ hblank
  rw [List.mem_reverse]
  exact mem_dropWhile hc hblank

theorem trim_ne_of_fence {line : String} (h : LineKind.ofChars line.toList = .fence f bare) :
    Text.trim line ≠ "---" := by
  intro htrim
  have hchars : Text.trimChars line.toList = ['-', '-', '-'] := by
    rw [← Text.toList_trim, htrim]
    rfl
  have hdash : ∀ c ∈ line.toList, Text.isBlank c = false → c ∈ ['-', '-', '-'] := by
    intro c hc hblank
    rw [← hchars]
    exact mem_trimChars hc hblank
  rcases mem_of_fence? (fence?_of_ofChars h) with hmark | hmark
  · exact absurd (hdash _ hmark (by decide)) (by decide)
  · exact absurd (hdash _ hmark (by decide)) (by decide)

end FenceLine

/-- After the lines `pre` the line `opening` opens a block with the fence `f`: no block is open, and
the metadata is over. -/
structure OpensBlock (pre : List String) (opening : String) (f : Fence) : Prop where
  fence : ∃ bare, LineKind.ofChars opening.toList = .fence f bare
  outside : (stateAfter pre).fence = none
  metadata : ∀ first more, pre = first :: more → Text.trim first = "---" →
    ∃ line ∈ more, endsMetadata line

section Block

variable {pre body rest : List String} {opening : String} {f : Fence}
  (hopens : OpensBlock pre opening f)

include hopens

theorem OpensBlock.contentLine_append (more : List String) :
    contentLine (pre ++ opening :: more) = contentLine pre ∧ contentLine pre ≤ pre.length := by
  cases pre with
  | nil =>
    obtain ⟨bare, hfence⟩ := hopens.fence
    rw [List.nil_append, contentLine_cons, if_neg (trim_ne_of_fence hfence)]
    exact ⟨rfl, Nat.le_refl 0⟩
  | cons first pre =>
    rw [List.cons_append]
    by_cases hfirst : Text.trim first = "---"
    · have hends : (pre.find? endsMetadata).isSome :=
        List.find?_isSome.mpr (hopens.metadata first pre rfl hfirst)
      obtain ⟨close, hfound⟩ := Option.isSome_iff_exists.mp hends
      obtain ⟨hclose, before, after, rfl, hbefore⟩ := List.find?_eq_some_iff_append.mp hfound
      have hbefore : ∀ line ∈ before, endsMetadata line = false := by simpa using hbefore
      rw [List.append_assoc, List.cons_append, contentLine_of_metadata hfirst hbefore hclose,
        contentLine_of_metadata hfirst hbefore hclose]
      simp
    · rw [contentLine_cons, contentLine_cons, if_neg hfirst, if_neg hfirst]
      exact ⟨rfl, Nat.zero_le _⟩

theorem OpensBlock.headings_eq (hbody : ∀ line ∈ body, endsBlock f line = false) :
    headings (pre ++ [opening] ++ body ++ rest) =
      headingsFrom .start (contentLine pre) ((kindsOf pre).drop (contentLine pre)) ++
        headingsFrom ⟨some f, false⟩ (pre.length + 1 + body.length) (kindsOf rest) := by
  obtain ⟨bare, hfence⟩ := hopens.fence
  obtain ⟨hcontent, hle⟩ := hopens.contentLine_append (body ++ rest)
  have hdocument : pre ++ [opening] ++ body ++ rest = pre ++ opening :: (body ++ rest) := by simp
  have hlength : (kindsOf pre).length = pre.length := by simp [kindsOf]
  have hkinds : kindsOf (pre ++ opening :: (body ++ rest)) =
      kindsOf pre ++ .fence f bare :: (kindsOf body ++ kindsOf rest) := by
    simp [kindsOf, hfence]
  have hopening : ScanState.step (stateAfter pre) pre.length (.fence f bare) =
      (⟨some f, false⟩, none) := by
    simp only [ScanState.step, hopens.outside]
  have hafter : contentLine pre + ((kindsOf pre).drop (contentLine pre)).length = pre.length := by
    rw [List.length_drop, hlength]
    omega
  rw [hdocument, Markdown.headings_eq]
  change headingsFrom .start (contentLine (pre ++ opening :: (body ++ rest)))
    ((kindsOf _).drop (contentLine _)) = _
  rw [hcontent, hkinds, List.drop_append_of_le_length (by omega), headingsFrom_append, hafter]
  change _ ++ headingsFrom (stateAfter pre) pre.length _ = _
  rw [headingsFrom, hopening]
  dsimp only
  rw [headingsFrom_of_not_endsBlock hbody]
  rfl

theorem OpensBlock.line_outside (hbody : ∀ line ∈ body, endsBlock f line = false) {h : Heading}
    (hh : h ∈ headings (pre ++ [opening] ++ body ++ rest)) :
    h.line < (pre ++ [opening]).length ∨ (pre ++ [opening]).length + body.length ≤ h.line := by
  rw [hopens.headings_eq hbody, List.mem_append] at hh
  rw [List.length_append, List.length_singleton]
  rcases hh with hh | hh
  · obtain ⟨-, hmem⟩ :=
      headingsFrom_ordered (kindsOf pre) _ (s := .start)
        (by simp [ScanState.Consistent, ScanState.start])
      rfl (by simp [ScanState.start])
    obtain ⟨-, kind, hkind, -⟩ := hmem h hh
    have hlt := (List.getElem?_eq_some_iff.mp hkind).1
    rw [kindsOf, List.length_map] at hlt
    omega
  · exact .inr (le_line_of_mem_headingsFrom rfl hh)

end Block

/-- Metadata begins with `first`, has the lines `body` and ends with `close`. -/
structure IsMetadata (first : String) (body : List String) (close : String) : Prop where
  opens : Text.trim first = "---"
  inside : ∀ line ∈ body, endsMetadata line = false
  closes : endsMetadata close

theorem IsMetadata.headings_eq {first close : String} {body : List String}
    (h : IsMetadata first body close) (rest : List String) :
    headings ([first] ++ body ++ close :: rest) = headingsFrom .start (body.length + 2)
      (kindsOf rest) := by
  have hcontent : contentLine ([first] ++ body ++ close :: rest) = body.length + 2 :=
    contentLine_of_metadata h.opens h.inside h.closes
  have hdocument : [first] ++ body ++ close :: rest = ([first] ++ body ++ [close]) ++ rest := by
    simp
  have hdrop : (kindsOf ([first] ++ body ++ close :: rest)).drop (body.length + 2) =
      kindsOf rest := by
    rw [hdocument, kindsOf, List.map_append]
    apply List.drop_left'
    simp
  rw [Markdown.headings_eq]
  change headingsFrom .start (contentLine _) ((kindsOf _).drop (contentLine _)) = _
  rw [hcontent, hdrop]

/-- No outline tells the two documents apart. -/
structure Indistinct (lines lines' : List String) : Prop where
  sameHeadings : headings lines = headings lines'
  sameCaptures : ∀ text text', Text.lines text = lines → Text.lines text' = lines' →
    captures text = captures text'
  sameOutlines : ∀ text text', Text.lines text = lines →
    Text.lines text' = lines' → ∀ minLines test,
    synthesize (captures text) (Text.lines text) minLines test = synthesize (captures text')
    (Text.lines text') minLines test

theorem indistinct_of_titles {lines lines' : List String} (hlength : lines.length = lines'.length)
    (hheadings : headings lines = headings lines')
    (htitles : ∀ h ∈ headings lines, titleAt lines h.line = titleAt lines' h.line) :
    Indistinct lines lines' := by
  have hcaptures : ∀ text text', Text.lines text = lines → Text.lines text' = lines' →
      captures text = captures text' := by
    intro text text' htext htext'
    unfold captures
    dsimp only
    rw [htext, htext', hheadings, hlength]
  refine ⟨hheadings, hcaptures, ?_⟩
  intro text text' htext htext' minLines test
  rw [← hcaptures text text' htext htext']
  apply synthesize_congr
  intro c hc
  rw [captures_eq_map, htext] at hc
  obtain ⟨h, hh, rfl⟩ := List.mem_map.mp hc
  change labelAt _ h.line = labelAt _ h.line
  rw [labelAt_of_nonneg _ (Int.natCast_nonneg _), labelAt_of_nonneg _ (Int.natCast_nonneg _), htext,
    htext', htitles h hh]

section Replacement

variable {before body body' after : List String} (hlength : body.length = body'.length)

include hlength

theorem getD_of_outside {i : Nat} (hi : i < before.length ∨ before.length + body.length ≤ i) :
    (before ++ body ++ after).getD i "" = (before ++ body' ++ after).getD i "" := by
  rw [List.getD_eq_getElem?_getD, List.getD_eq_getElem?_getD]
  rcases hi with hi | hi
  · rw [List.append_assoc, List.append_assoc, List.getElem?_append_left hi,
      List.getElem?_append_left hi]
  · rw [List.getElem?_append_right (by simpa using hi),
      List.getElem?_append_right (by simpa [← hlength] using hi)]
    simp only [List.length_append, hlength]

theorem indistinct_of_outside
    (hheadings : headings (before ++ body ++ after) = headings (before ++ body' ++ after))
    (houtside : ∀ h ∈ headings (before ++ body ++ after), h.line < before.length ∨
      before.length + body.length ≤ h.line) :
    Indistinct (before ++ body ++ after) (before ++ body' ++ after) := by
  apply indistinct_of_titles _ hheadings
  · intro h hh
    unfold titleAt
    rw [Int.toNat_natCast, getD_of_outside hlength (houtside h hh)]
  · simp only [List.length_append, hlength]

end Replacement

/-- What stands in a block of code or in the metadata leaves no trace: other lines of the same
number in its place, as long as they do not end the block or the metadata either, give the same
headings, captures and outlines. -/
theorem hidden_lines_without_influence :
    (∀ pre opening f, OpensBlock pre opening f → ∀ body body' rest : List String,
      (∀ line ∈ body, endsBlock f line = false) → (∀ line ∈ body', endsBlock f line = false) →
      body.length = body'.length →
      Indistinct (pre ++ [opening] ++ body ++ rest) (pre ++ [opening] ++ body' ++ rest)) ∧
    ∀ first body body' close rest, IsMetadata first body close → IsMetadata first body' close →
      body.length = body'.length →
      Indistinct ([first] ++ body ++ close :: rest) ([first] ++ body' ++ close :: rest) := by
  constructor
  · intro pre opening f hopens body body' rest hbody hbody' hlength
    apply indistinct_of_outside hlength
    · rw [hopens.headings_eq hbody, hopens.headings_eq hbody', hlength]
    · exact fun h hh => hopens.line_outside hbody hh
  · intro first body body' close rest hmetadata hmetadata' hlength
    apply indistinct_of_outside hlength
    · rw [hmetadata.headings_eq, hmetadata'.headings_eq, hlength]
    · intro h hh
      rw [hmetadata.headings_eq] at hh
      have hline := le_line_of_mem_headingsFrom rfl hh
      rw [List.length_singleton]
      omega

/-- The block holds a heading, a shorter fence, a fence of the other mark, one with a word after it
and an underline; the metadata holds a heading and a fence. -/
theorem hidden_lines_without_influence_misleading :
    let before := ["# A", "text", "~~~~ py"]
    let body := ["# no", "~~~", "````", "~~~~ x", "==="]
    let after := ["~~~~~", "===", "B", "---"]
    OpensBlock ["# A", "text"] "~~~~ py" ⟨'~', 4⟩ ∧
      (∀ line ∈ body, endsBlock ⟨'~', 4⟩ line = false) ∧
      Indistinct (before ++ body ++ after) (before ++ ["", "", "", "", ""] ++ after) ∧
      captures "# A\ntext\n~~~~ py\n# no\n~~~\n````\n~~~~ x\n===\n~~~~~\n===\nB\n---" =
        captures "# A\ntext\n~~~~ py\n\n\n\n\n\n~~~~~\n===\nB\n---" ∧
      IsMetadata "---" ["# x", "```"] "..." ∧
      Indistinct (["---"] ++ ["# x", "```"] ++ "..." :: ["# B"])
        (["---"] ++ ["a", "b"] ++ "..." :: ["# B"]) := by
  intro before body after
  have hopens : OpensBlock ["# A", "text"] "~~~~ py" ⟨'~', 4⟩ := by
    refine ⟨⟨false, by decide +kernel⟩, by decide +kernel, ?_⟩
    intro first more hpre hfirst
    cases hpre
    exact absurd hfirst (by decide +kernel)
  have hbody : ∀ line ∈ body, endsBlock ⟨'~', 4⟩ line = false := by decide +kernel
  have hempty : ∀ line ∈ ["", "", "", "", ""], endsBlock ⟨'~', 4⟩ line = false := by decide +kernel
  have hsame :=
    hidden_lines_without_influence.1 _ _ _ hopens body ["", "", "", "", ""] after hbody hempty rfl
  have hmetadata : IsMetadata "---" ["# x", "```"] "..." :=
    ⟨by decide +kernel, by decide +kernel, by decide +kernel⟩
  have hmetadata' : IsMetadata "---" ["a", "b"] "..." :=
    ⟨by decide +kernel, by decide +kernel, by decide +kernel⟩
  refine ⟨hopens, hbody, hsame, ?_, hmetadata, ?_⟩
  · exact hsame.sameCaptures _ _ (by decide +kernel) (by decide +kernel)
  · exact hidden_lines_without_influence.2 _ _ _ _ _ hmetadata hmetadata' rfl

end SourceOutline.Markdown
