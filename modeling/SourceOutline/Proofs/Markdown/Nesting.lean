import Mathlib.Data.Finset.Max
import SourceOutline.Proofs.Markdown.Outline
import SourceOutline.Proofs.Markdown.Visibility
import SourceOutline.Proofs.Text.Lines

/-! Sections of Markdown text as a forest. Where a section ends is looked up for each heading by
itself. What the look-up comes to is said once, of the lines: a line belongs to the section of a
heading above it when all headings between the two have a lower rank. That sections nest, and that
they leave no line out after the first heading, follows from this alone. -/
namespace SourceOutline

def LineRange.Covers (r : LineRange) (n : Int) : Prop := r.first ≤ n ∧ n ≤ r.last

def LineRange.Within (q r : LineRange) : Prop := r.first ≤ q.first ∧ q.last ≤ r.last

instance (r : LineRange) (n : Int) : Decidable (r.Covers n) := inferInstanceAs (Decidable (_ ∧ _))

instance (q r : LineRange) : Decidable (q.Within r) := inferInstanceAs (Decidable (_ ∧ _))

namespace Markdown

variable {lines : List String} {h k : Heading} {n : Int}

theorem line_le_of_find? {all : List Heading} (hordered : all.Pairwise fun a b => a.line < b.line)
    {p : Heading → Bool} (hfound : all.find? p = some h) (hk : k ∈ all) (hp : p k) :
    h.line ≤ k.line := by
  obtain ⟨-, before, after, rfl, hbefore⟩ := List.find?_eq_some_iff_append.mp hfound
  rcases List.mem_append.mp hk with hk | hk
  · have hnot := hbefore k hk
    simp [hp] at hnot
  · rcases List.mem_cons.mp hk with rfl | hk
    · exact Nat.le_refl _
    · have hlt := (List.pairwise_cons.mp (List.pairwise_append.mp hordered).2.1).1 k hk
      omega

theorem covers_sectionOf_iff (hn : n < lines.length) : (sectionOf lines h).Covers n ↔
    h.line ≤ n ∧ ∀ k ∈ headings lines, h.line < k.line → k.line ≤ n → h.level < k.level := by
  have hends : ∀ k : Heading, h.closedBy k ↔ h.line < k.line ∧ k.level ≤ h.level := by
    simp [Heading.closedBy]
  unfold LineRange.Covers sectionOf Heading.sectionIn
  apply and_congr_right
  intro _
  cases hfound : (headings lines).find? h.closedBy with
  | none =>
    rw [List.find?_eq_none] at hfound
    constructor
    · intro _ k hk hlt _
      have hopen := hfound k hk
      rw [hends] at hopen
      omega
    · intro _
      dsimp only
      omega
  | some e =>
    have he := (hends e).mp (List.find?_some hfound)
    constructor
    · intro hlast k hk hlt hle
      by_contra hlevel
      have hfirst :=
        line_le_of_find? (headings_spec lines).1 hfound hk ((hends k).mpr ⟨hlt, by omega⟩)
      dsimp only at hlast
      omega
    · intro hall
      have hlevel := hall e (List.mem_of_find?_eq_some hfound) he.1
      dsimp only
      omega

section Nested

variable (hk : k ∈ headings lines) (hlt : h.line < k.line)
  (hinside : k.line ≤ (sectionOf lines h).last)

include hk hlt hinside

theorem level_lt_of_inside : h.level < k.level := by
  have hline := line_lt_of_mem_headings hk
  have hcovers : (sectionOf lines h).Covers k.line := ⟨Int.ofNat_le.mpr (Nat.le_of_lt hlt), hinside⟩
  rw [covers_sectionOf_iff (by omega)] at hcovers
  exact hcovers.2 k hk hlt (Int.le_refl _)

theorem last_le_of_inside : (sectionOf lines k).last ≤ (sectionOf lines h).last := by
  have hline := line_lt_of_mem_headings hk
  obtain ⟨hfirst, hlast⟩ := sectionOf_bounds hk
  have hcovers : (sectionOf lines h).Covers k.line := ⟨Int.ofNat_le.mpr (Nat.le_of_lt hlt), hinside⟩
  have hcovers' : (sectionOf lines k).Covers (sectionOf lines k).last := ⟨hfirst, Int.le_refl _⟩
  rw [covers_sectionOf_iff (by omega)] at hcovers
  rw [covers_sectionOf_iff hlast] at hcovers'
  suffices hall : (sectionOf lines h).Covers (sectionOf lines k).last from hall.2
  rw [covers_sectionOf_iff hlast]
  refine ⟨by omega, ?_⟩
  -- a heading up to the inner one has a lower rank than the outer one, and one after it than the
  -- inner one
  intro j hj hlt' hle
  have hlevel := level_lt_of_inside hk hlt hinside
  by_cases hbefore : j.line ≤ k.line
  · exact hcovers.2 j hj hlt' (by omega)
  · have hdeeper := hcovers'.2 j hj (by omega) hle
    omega

end Nested

theorem eq_of_line_eq (hh : h ∈ headings lines) (hk : k ∈ headings lines) (heq : h.line = k.line) :
    h = k := by
  apply List.inj_on_of_nodup_map _ hh hk heq
  rw [List.Nodup, List.pairwise_map]
  exact (headings_spec lines).1.imp Nat.ne_of_lt

theorem within_of_covers (hh : h ∈ headings lines) (hk : k ∈ headings lines)
    (hcovers : (sectionOf lines h).Covers k.line) :
    (sectionOf lines k).Within (sectionOf lines h) := by
  have hle : h.line ≤ k.line := Int.ofNat_le.mp hcovers.1
  rcases Nat.lt_or_eq_of_le hle with hlt | heq
  · exact ⟨Int.ofNat_le.mpr hle, last_le_of_inside hk hlt hcovers.2⟩
  · rw [eq_of_line_eq hh hk heq]
    exact ⟨Int.le_refl _, Int.le_refl _⟩

theorem covers_underline (hlines : ∀ line ∈ lines, '\n' ∉ line.toList)
    (hused : Underlines lines (h.line + 1)) : (sectionOf lines h).Covers (h.line + 1) := by
  rw [underlines_succ_iff] at hused
  have hlt := hused.1.lt
  rw [covers_sectionOf_iff (by omega)]
  refine ⟨by omega, ?_⟩
  intro k hk hafter hle
  have hline : k.line = h.line + 1 := by omega
  rcases (mem_headings_iff hlines k).mp hk with ⟨-, hshape⟩ | ⟨hnext, -⟩
  · rw [hline] at hshape
    exact absurd hshape (hused.2.1 k.level)
  · rw [hline, underlines_succ_iff] at hnext
    exact absurd (underlines_succ_iff.mpr hused) hnext.2.2.2.notUsed

theorem exists_last_heading (hh : h ∈ headings lines) (hle : h.line ≤ n) :
    ∃ k ∈ headings lines, k.line ≤ n ∧ ∀ j ∈ headings lines, (j.line : Int) ≤ n →
      j.line ≤ k.line := by
  have hnonempty : ((headings lines).toFinset.filter fun k => (k.line : Int) ≤ n).Nonempty :=
    ⟨h, by simp [hh, hle]⟩
  obtain ⟨k, hk, hmax⟩ := Finset.exists_max_image _ Heading.line hnonempty
  simp only [Finset.mem_filter, List.mem_toFinset] at hk hmax
  exact ⟨k, hk.1, hk.2, fun j hj hle => hmax j ⟨hj, hle⟩⟩

theorem covers_of_last (hn : n < lines.length) (hle : h.line ≤ n)
    (hlast : ∀ k ∈ headings lines, (k.line : Int) ≤ n → k.line ≤ h.line) :
    (sectionOf lines h).Covers n := by
  rw [covers_sectionOf_iff hn]
  refine ⟨hle, ?_⟩
  intro k hk hlt hbefore
  have hnot := hlast k hk hbefore
  omega

/-- The sections of a text, each with the heading that opens it. -/
def headedSections (text : String) : List (Heading × LineRange) :=
  (headings (Text.lines text)).zip ((captures text).map Capture.range)

theorem headedSections_eq (text : String) :
    headedSections text = (headings (Text.lines text)).map fun h =>
      (h, sectionOf (Text.lines text) h) := by
  unfold headedSections
  rw [captures_eq_map, List.map_map]
  exact List.map_prod_left_eq_zip.symm

/-- The sections of a text form a forest. Two of them are apart, or the later one lies within the
earlier one and has the lower rank; each goes from the line of its heading on and takes in the
underline, if the heading has one; and from the first heading to the last line every line is in a
section, the innermost of which is that of the last heading at or above it. -/
theorem sections_form_forest (text : String) :
    let lines := Text.lines text
    (captures text).length = (headings lines).length ∧
    (headedSections text).Pairwise (fun a b => a.2.first < b.2.first ∧
      (a.2.last < b.2.first ∨ b.2.Within a.2) ∧
      (b.2.first ≤ a.2.last → a.1.level < b.1.level ∧ b.2.last ≤ a.2.last)) ∧
    (∀ a ∈ headedSections text, a.2.first = a.1.line ∧ a.2.first ≤ a.2.last ∧
      a.2.last < lines.length ∧
      (HashShape (charsAt lines a.1.line) a.1.level ∨
        Underlines lines (a.1.line + 1) ∧ UnderlineShape (charsAt lines (a.1.line + 1)) a.1.level ∧
          a.2.Covers (a.1.line + 1))) ∧
    ∀ n : Nat, n < lines.length → (∃ h ∈ headings lines, h.line ≤ n) →
      ∃ a ∈ headedSections text, a.2.Covers n ∧ a.1.line ≤ n ∧
        (∀ h ∈ headings lines, h.line ≤ n → h.line ≤ a.1.line) ∧
        ∀ b ∈ headedSections text, b.2.Covers n → a.2.Within b.2 := by
  intro lines
  have hlines : ∀ line ∈ lines, '\n' ∉ line.toList := fun line => Text.feed_notMem_lines
  rw [headedSections_eq]
  refine ⟨?_, ?_, ?_, ?_⟩
  · rw [captures_eq_map, List.length_map]
  · rw [List.pairwise_map]
    apply (headings_spec lines).1.imp_of_mem
    intro h k hh hk hlt
    have hfirst : (h.line : Int) < k.line := Int.ofNat_lt.mpr hlt
    refine ⟨hfirst, ?_, ?_⟩
    · by_cases hinside : k.line ≤ (sectionOf lines h).last
      · exact .inr (within_of_covers hh hk ⟨Int.le_of_lt hfirst, hinside⟩)
      · exact .inl (Int.not_le.mp hinside)
    · intro hinside
      exact ⟨level_lt_of_inside hk hlt hinside, last_le_of_inside hk hlt hinside⟩
  · intro a ha
    obtain ⟨h, hh, rfl⟩ := List.mem_map.mp ha
    obtain ⟨hfirst, hlast⟩ := sectionOf_bounds hh
    refine ⟨rfl, hfirst, hlast, ?_⟩
    rcases (mem_headings_iff hlines h).mp hh with ⟨-, hshape⟩ | ⟨hused, hshape⟩
    · exact .inl hshape
    · exact .inr ⟨hused, hshape, covers_underline hlines hused⟩
  · rintro n hn ⟨first, hfirst, hle⟩
    obtain ⟨h, hh, hbefore, hlast⟩ := exists_last_heading hfirst (Int.ofNat_le.mpr hle)
    have hcovers := covers_of_last (Int.ofNat_lt.mpr hn) hbefore hlast
    refine ⟨_, List.mem_map_of_mem hh, hcovers, Int.ofNat_le.mp hbefore, ?_, ?_⟩
    · exact fun k hk hle => hlast k hk (Int.ofNat_le.mpr hle)
    · intro b hb hcovers'
      obtain ⟨k, hk, rfl⟩ := List.mem_map.mp hb
      have hle' := hlast k hk hcovers'.1
      exact within_of_covers hk hh ⟨Int.ofNat_le.mpr hle', Int.le_trans hbefore hcovers'.2⟩

example : headedSections "words\n# Top\nPart\n----\nmore\n#### Deep\n## Next\n# End" =
    [(⟨1, 1⟩, ⟨1, 6⟩), (⟨2, 2⟩, ⟨2, 5⟩), (⟨5, 4⟩, ⟨5, 5⟩), (⟨6, 2⟩, ⟨6, 6⟩), (⟨7, 1⟩, ⟨7, 7⟩)] := by
  decide +kernel

end Markdown

end SourceOutline
