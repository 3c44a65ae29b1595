import SourceOutline.Proofs.Markdown.Visibility

/-! Rules: lines of nothing but hyphens or equals signs. A rule below text underlines it. A rule
with no text above it divides the document, but it is text itself for the line that follows, so a
second rule below it makes it a heading. In a run of rules this goes on by turns: each rule either
underlines the line above it or can be underlined. -/
namespace SourceOutline.Markdown

/-- Three or more `=`, or three or more `-`, and nothing but blanks after them. -/
def IsRule (lines : List String) (i : Nat) : Prop := ∃ level, UnderlineShape (charsAt lines i) level

structure VisibleRule (lines : List String) (i : Nat) : Prop where
  visible : Visible lines i
  rule : IsRule lines i

/-- A visible line that is neither blank nor a rule and has no hashes before its text. -/
structure PlainText (lines : List String) (i : Nat) : Prop where
  visible : Visible lines i
  notBlank : Text.allBlank (charsAt lines i) = false
  notHashes : ∀ level, ¬HashShape (charsAt lines i) level
  notRule : ¬IsRule lines i

def TextAbove (lines : List String) (i : Nat) : Prop := ∃ j, j + 1 = i ∧ PlainText lines j

/-- The rules from line `first` on, `size` of them, with no further rule directly above or below. -/
structure RuleRun (lines : List String) (first size : Nat) : Prop where
  rules : ∀ k < size, VisibleRule lines (first + k)
  above : ∀ j, j + 1 = first → ¬VisibleRule lines j
  below : ¬VisibleRule lines (first + size)

variable {lines : List String} {i : Nat}

section Underlining

theorem isRule_iff : IsRule lines i ↔ (underline? (charsAt lines i)).isSome := by
  rw [Option.isSome_iff_exists]
  constructor
  · rintro ⟨level, hshape⟩
    exact ⟨_, underline?_eq_some_iff.mpr ⟨level, hshape, rfl⟩⟩
  · rintro ⟨kind, hkind⟩
    obtain ⟨level, hshape, -⟩ := underline?_eq_some_iff.mp hkind
    exact ⟨level, hshape⟩

theorem IsRule.allBlank (h : IsRule lines i) : Text.allBlank (charsAt lines i) = false :=
  h.choose_spec.allBlank

theorem IsRule.not_hashes (h : IsRule lines i) (level : Nat) :
    ¬HashShape (charsAt lines i) level := by
  intro hhashes
  obtain ⟨_, hshape⟩ := h
  rcases hshape.head? with hhead | hhead <;> simp [hhashes.head?] at hhead

theorem VisibleRule.underlinable_iff (h : VisibleRule lines i) :
    Underlinable lines i ↔ ¬Underlines lines i :=
  ⟨fun hline => hline.notUsed, fun hused => ⟨h.visible, h.rule.allBlank, h.rule.not_hashes, hused⟩⟩

theorem PlainText.underlinable (h : PlainText lines i) : Underlinable lines i :=
  ⟨h.visible, h.notBlank, h.notHashes, fun hused => h.notRule (exists_shape_of_underlines hused)⟩

theorem underlinable_cases :
    Underlinable lines i ↔ PlainText lines i ∨ (VisibleRule lines i ∧ ¬Underlines lines i) := by
  constructor
  · intro h
    by_cases hrule : IsRule lines i
    · exact .inr ⟨⟨h.visible, hrule⟩, h.notUsed⟩
    · exact .inl ⟨h.visible, h.notBlank, h.notHashes, hrule⟩
  · rintro (htext | ⟨hrule, hused⟩)
    · exact htext.underlinable
    · exact hrule.underlinable_iff.mpr hused

theorem VisibleRule.underlines_succ_iff (h : VisibleRule lines (i + 1)) :
    Underlines lines (i + 1) ↔ Underlinable lines i := by
  rw [Markdown.underlines_succ_iff]
  exact ⟨fun hused => hused.2.2.2, fun hline => ⟨h.visible, h.rule.not_hashes, h.rule, hline⟩⟩

theorem TextAbove.underlines (habove : TextAbove lines i) (h : VisibleRule lines i) :
    Underlines lines i := by
  obtain ⟨j, rfl, htext⟩ := habove
  exact h.underlines_succ_iff.mpr htext.underlinable

theorem VisibleRule.underlines_iff (h : VisibleRule lines i) :
    Underlines lines i ↔ TextAbove lines i ∨ ∃ j, j + 1 = i ∧ VisibleRule lines j ∧
      ¬Underlines lines j := by
  constructor
  · intro hused
    cases i with
    | zero => exact hused.elim
    | succ j =>
      rcases underlinable_cases.mp (h.underlines_succ_iff.mp hused) with htext | hrule
      · exact .inl ⟨j, rfl, htext⟩
      · exact .inr ⟨j, rfl, hrule⟩
  · rintro (habove | ⟨j, rfl, hrule⟩)
    · exact habove.underlines h
    · exact h.underlines_succ_iff.mpr (underlinable_cases.mpr (.inr hrule))

end Underlining

theorem RuleRun.underlines_iff {first size : Nat} (hrun : RuleRun lines first size) {k : Nat}
    (hk : k < size) : Underlines lines (first + k) ↔ (TextAbove lines first ↔ k % 2 = 0) := by
  induction k with
  | zero =>
    have hnone : ¬∃ j, j + 1 = first + 0 ∧ VisibleRule lines j ∧ ¬Underlines lines j := by
      rintro ⟨j, hj, hrule, -⟩
      exact hrun.above j hj hrule
    rw [(hrun.rules 0 hk).underlines_iff, or_iff_left hnone]
    simp
  | succ k ih =>
    have hrule := hrun.rules k (by omega)
    have hnext : VisibleRule lines (first + k + 1) := hrun.rules (k + 1) hk
    rw [← Nat.add_assoc, hnext.underlines_succ_iff, hrule.underlinable_iff, ih (by omega)]
    have hturn : (k + 1) % 2 = 0 ↔ ¬k % 2 = 0 := by omega
    rw [hturn]
    by_cases habove : TextAbove lines first <;> simp [habove]

section Headings

variable (hlines : ∀ line ∈ lines, '\n' ∉ line.toList)

include hlines

theorem rule_mem_headings_iff (h : Heading) : (h ∈ headings lines ∧ IsRule lines h.line) ↔
    VisibleRule lines h.line ∧ ¬Underlines lines h.line ∧
      Visible lines (h.line + 1) ∧ UnderlineShape (charsAt lines (h.line + 1)) h.level := by
  rw [mem_headings_iff hlines]
  constructor
  · rintro ⟨⟨-, hhashes⟩ | ⟨hused, hshape⟩, hrule⟩
    · exact absurd hhashes (hrule.not_hashes _)
    · obtain ⟨hvisible, -, -, hline⟩ := underlines_succ_iff.mp hused
      exact ⟨⟨hline.visible, hrule⟩, hline.notUsed, hvisible, hshape⟩
  · rintro ⟨hrule, hused, hvisible, hshape⟩
    have hbelow : VisibleRule lines (h.line + 1) := ⟨hvisible, _, hshape⟩
    exact ⟨.inr ⟨hbelow.underlines_succ_iff.mpr (hrule.underlinable_iff.mpr hused), hshape⟩,
      hrule.rule⟩

theorem exists_heading_on_rule_iff (hrule : IsRule lines i) :
    (∃ level, ⟨i, level⟩ ∈ headings lines) ↔
    VisibleRule lines i ∧ VisibleRule lines (i + 1) ∧ ¬Underlines lines i := by
  constructor
  · rintro ⟨level, hmem⟩
    obtain ⟨hhere, hused, hvisible, hshape⟩ := (rule_mem_headings_iff hlines _).mp ⟨hmem, hrule⟩
    exact ⟨hhere, ⟨hvisible, level, hshape⟩, hused⟩
  · rintro ⟨hhere, ⟨hvisible, level, hshape⟩, hused⟩
    exact ⟨level,
      ((rule_mem_headings_iff hlines ⟨i, level⟩).mpr ⟨hhere, hused, hvisible, hshape⟩).1⟩

theorem exists_rule_of_pair (hhere : VisibleRule lines i) (hbelow : VisibleRule lines (i + 1))
    (habove : ¬TextAbove lines i) : ∃ h ∈ headings lines, IsRule lines h.line := by
  by_cases hused : Underlines lines i
  · rcases hhere.underlines_iff.mp hused with htext | ⟨j, rfl, hrule, hidle⟩
    · exact absurd htext habove
    · obtain ⟨level, hmem⟩ :=
        (exists_heading_on_rule_iff hlines hrule.rule).mpr ⟨hrule, hhere, hidle⟩
      exact ⟨_, hmem, hrule.rule⟩
  · obtain ⟨level, hmem⟩ :=
      (exists_heading_on_rule_iff hlines hhere.rule).mpr ⟨hhere, hbelow, hused⟩
    exact ⟨_, hmem, hhere.rule⟩

theorem heading_cases {h : Heading} (hh : h ∈ headings lines) :
    (Visible lines h.line ∧ HashShape (charsAt lines h.line) h.level) ∨ PlainText lines h.line ∨
      (VisibleRule lines h.line ∧ VisibleRule lines (h.line + 1) ∧ ¬TextAbove lines h.line) := by
  rcases (mem_headings_iff hlines h).mp hh with hhashes | ⟨hused, hshape⟩
  · exact .inl hhashes
  · obtain ⟨hvisible, -, -, hline⟩ := underlines_succ_iff.mp hused
    rcases underlinable_cases.mp hline with htext | ⟨hrule, hidle⟩
    · exact .inr (.inl htext)
    · exact .inr
        (.inr ⟨hrule, ⟨hvisible, _, hshape⟩, fun habove => hidle (habove.underlines hrule)⟩)

end Headings

/-- Rules become headings two by two. A heading is a line with hashes, plain text, or a rule with
another rule below it and no text above it. Some rule is a heading exactly when two rules stand
below each other with no text above them, and in a run of rules every second one is a heading, as
long as another follows: the second, fourth and so on below text, and otherwise the first, third and
so on. -/
theorem rules_reported_by_twos (lines : List String) (hlines : ∀ line ∈ lines, '\n' ∉ line.toList) :
    (∀ h ∈ headings lines,
      (Visible lines h.line ∧ HashShape (charsAt lines h.line) h.level) ∨ PlainText lines h.line ∨
        (VisibleRule lines h.line ∧ VisibleRule lines (h.line + 1) ∧ ¬TextAbove lines h.line)) ∧
    ((∃ h ∈ headings lines, IsRule lines h.line) ↔
      ∃ i, VisibleRule lines i ∧ VisibleRule lines (i + 1) ∧ ¬TextAbove lines i) ∧
    ∀ first size, RuleRun lines first size → ∀ k < size,
      (∃ level, ⟨first + k, level⟩ ∈ headings lines) ↔ k + 1 < size ∧
        (TextAbove lines first ↔ k % 2 = 1) := by
  refine ⟨fun h hh => heading_cases hlines hh, ⟨?_, ?_⟩, fun first size hrun k hk => ?_⟩
  · rintro ⟨h, hh, hrule⟩
    rcases heading_cases hlines hh with ⟨-, hhashes⟩ | htext | hpair
    · exact absurd hhashes (hrule.not_hashes _)
    · exact absurd hrule htext.notRule
    · exact ⟨h.line, hpair⟩
  · rintro ⟨i, hhere, hbelow, habove⟩
    exact exists_rule_of_pair hlines hhere hbelow habove
  · have hrule := hrun.rules k hk
    have hbelow : VisibleRule lines (first + k + 1) ↔ k + 1 < size := by
      refine ⟨fun h => ?_, fun h => hrun.rules (k + 1) h⟩
      rcases Nat.lt_or_eq_of_le (Nat.succ_le_of_lt hk) with hlt | rfl
      · exact hlt
      · exact absurd h hrun.below
    have hturn : k % 2 = 0 ↔ ¬k % 2 = 1 := by omega
    rw [exists_heading_on_rule_iff hlines hrule.rule, hrun.underlines_iff hk, hbelow, hturn]
    by_cases habove : TextAbove lines first <;> simp [hrule, habove]

theorem visible_of_no_fence (hlines : ∀ line ∈ lines, '\n' ∉ line.toList)
    (hfence : ∀ line ∈ lines, fence? line.toList = none) (hcontent : contentLine lines = 0)
    (hi : i < lines.length) : Visible lines i := by
  have hother : ∀ j f rest, ¬FenceShape (charsAt lines j) f rest := by
    intro j f rest hshape
    have hsome := (fence?_eq_some_iff (feed_notMem_charsAt hlines j)).mpr ⟨f, rest, hshape, rfl⟩
    rw [charsAt, List.getD_eq_getElem?_getD] at hsome
    cases hline : lines[j]? with
    | none =>
      have hempty : fence? ("" : String).toList = none := by decide
      rw [hline, Option.getD_none, hempty] at hsome
      cases hsome
    | some line =>
      rw [hline, Option.getD_some, hfence line (List.mem_of_getElem? hline)] at hsome
      cases hsome
  refine ⟨by omega, hi, hother i, ?_⟩
  rintro ⟨j, -, hopens, -⟩
  obtain ⟨-, ⟨f, rest, hshape⟩, -⟩ := opens_iff.mp hopens
  exact hother j f rest hshape

/-- Three rules below a blank line, of which the first becomes a heading, and three below text, of
which the second does. -/
theorem rules_reported_by_twos_runs :
    let lines := ["text", "", "---", "===", "---", "", "more", "===", "---", "==="]
    (∀ line ∈ lines, '\n' ∉ line.toList) ∧ RuleRun lines 2 3 ∧ ¬TextAbove lines 2 ∧
      RuleRun lines 7 3 ∧ TextAbove lines 7 ∧
      (∃ level, ⟨2, level⟩ ∈ headings lines) ∧ (¬∃ level, ⟨7, level⟩ ∈ headings lines) ∧
      ∃ level, ⟨8, level⟩ ∈ headings lines := by
  intro lines
  have hlines : ∀ line ∈ lines, '\n' ∉ line.toList := by decide +kernel
  have hvisible : ∀ {i}, i < 10 → Visible lines i :=
    visible_of_no_fence hlines (by decide +kernel) (by decide +kernel)
  have hrule : ∀ i ∈ [2, 3, 4, 7, 8, 9], (underline? (charsAt lines i)).isSome := by decide +kernel
  have hother : ∀ i ∈ [1, 5, 6], ¬(underline? (charsAt lines i)).isSome := by decide +kernel
  have hrun : RuleRun lines 2 3 := by
    refine ⟨fun k hk => ⟨hvisible (by omega), isRule_iff.mpr (hrule _ ?_)⟩,
      fun j hj h => ?_, fun h => ?_⟩
    · simp only [List.mem_cons]
      omega
    · obtain rfl : j = 1 := by omega
      exact hother 1 (by decide) (isRule_iff.mp h.rule)
    · exact hother 5 (by decide) (isRule_iff.mp h.rule)
  have hrun' : RuleRun lines 7 3 := by
    refine ⟨fun k hk => ⟨hvisible (by omega), isRule_iff.mpr (hrule _ ?_)⟩,
      fun j hj h => ?_, fun h => ?_⟩
    · simp only [List.mem_cons]
      omega
    · obtain rfl : j = 6 := by omega
      exact hother 6 (by decide) (isRule_iff.mp h.rule)
    · exact absurd h.visible.lt (by decide)
  have habove : ¬TextAbove lines 2 := by
    rintro ⟨j, hj, htext⟩
    obtain rfl : j = 1 := by omega
    exact absurd htext.notBlank (by decide +kernel)
  have habove' : TextAbove lines 7 := by
    refine ⟨6, rfl, hvisible (by decide), by decide +kernel, fun level h => ?_, fun h => ?_⟩
    · exact absurd h.head? (by decide +kernel)
    · exact hother 6 (by decide) (isRule_iff.mp h)
  have hturns := (rules_reported_by_twos lines hlines).2.2
  refine ⟨hlines, hrun, habove, hrun', habove', ?_, ?_, ?_⟩
  · exact (hturns 2 3 hrun 0 (by decide)).mpr ⟨by decide, by simp [habove]⟩
  · exact fun h => absurd ((hturns 7 3 hrun' 0 (by decide)).mp h).2 (by simp [habove'])
  · exact (hturns 7 3 hrun' 1 (by decide)).mpr ⟨by decide, by simp [habove']⟩

theorem rule_reported_as_heading :
    let lines := ["text", "", "---", "---", "more"]
    (∀ line ∈ lines, '\n' ∉ line.toList) ∧ headings lines = [⟨2, 2⟩] ∧ IsRule lines 2 := by
  intro lines
  exact ⟨by decide +kernel, by decide +kernel, 2, '-', 3, [], rfl,
    Nat.le_refl 3, by decide +kernel, rfl⟩

end SourceOutline.Markdown
