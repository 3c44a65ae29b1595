import Mathlib.Data.List.Basic
import SourceOutline.Proofs.Outline.Spans

/-! Outlines read off the captures, without candidates, sorting or ranges already listed. A capture
survives when it tags a definition that is long enough and is not a block on a line of inline
markup. The ranges of the survivors are what is listed; they come in the order of their first lines,
and on one line in the order in which their first survivors were captured. -/
namespace SourceOutline

/-- Whether a capture is good for an entry of the outline. -/
def Capture.survives (lines : List String) (test : String → Bool) (minLines : Int) (c : Capture) :
    Bool :=
  c.isDefinition && decide (minLines ≤ c.span.size) &&
    (c.isName || !test (titleAt lines c.span.first))

def firstSurvivor (lines : List String) (test : String → Bool) (minLines : Int)
    (captures : List Capture) (r : LineRange) : Nat :=
  captures.findIdx fun c => c.survives lines test minLines && decide (c.span = r)

/-- The order of entries: by the first line, then by the first survivor. -/
def ComesBefore (lines : List String) (test : String → Bool) (minLines : Int)
    (captures : List Capture) (a b : LineRange) : Prop :=
  a.first < b.first ∨ a.first = b.first ∧
    firstSurvivor lines test minLines captures a < firstSurvivor lines test minLines captures b

instance : DecidableRel (ComesBefore lines test minLines captures) :=
  fun _ _ => inferInstanceAs (Decidable (_ ∨ _))

variable {lines : List String} {test : String → Bool} {minLines : Int} {captures : List Capture}

theorem Capture.survives_iff {c : Capture} : c.survives lines test minLines ↔
    c.isDefinition ∧ minLines ≤ c.span.size ∧
      (c.isName ∨ test (titleAt lines c.span.first) = false) := by
  simp [Capture.survives, and_assoc]

section Choice

variable {seen : List LineRange} {cs : List Candidate}

theorem chosen_sublist : (chosen lines test seen cs).Sublist (cs.map (·.range)) := by
  induction cs generalizing seen with
  | nil => exact .slnil
  | cons c cs ih =>
    unfold chosen
    rw [List.map_cons]
    split
    · exact ih.cons _
    · split
      · exact ih.cons _
      · exact ih.cons_cons _

theorem filter_chosen (p : LineRange → Bool) {seen' : List LineRange}
    (hseen : ∀ r, p r → (r ∈ seen ↔ r ∈ seen')) :
    (chosen lines test seen cs).filter p = chosen lines test seen'
      (cs.filter fun c => p c.range) := by
  induction cs generalizing seen seen' with
  | nil => rfl
  | cons c cs ih =>
    rw [chosen]
    cases hp : p c.range with
    | true =>
      rw [List.filter_cons_of_pos (p := fun c : Candidate => p c.range) hp, chosen]
      simp only [← hseen c.range hp]
      split
      · exact ih hseen
      · split
        · exact ih hseen
        · have hmore : ∀ r, p r → (r ∈ c.range :: seen ↔ r ∈ c.range :: seen') := by
            intro r hr
            simp only [List.mem_cons, hseen r hr]
          rw [List.filter_cons_of_pos hp, ih hmore]
    | false =>
      rw [List.filter_cons_of_neg (p := fun c : Candidate => p c.range) (by simp [hp])]
      split
      · exact ih hseen
      · split
        · exact ih hseen
        · rw [List.filter_cons_of_neg (by simp [hp])]
          refine ih fun r hr => ?_
          have hne : r ≠ c.range := by
            rintro rfl
            rw [hp] at hr
            cases hr
          simp only [List.mem_cons, hne, false_or, hseen r hr]

theorem firstSurvivor_cons_self {c : Capture} (h : c.survives lines test minLines) :
    firstSurvivor lines test minLines (c :: captures) c.span = 0 := by
  simp [firstSurvivor, List.findIdx_cons, h]

theorem firstSurvivor_cons_of_ne {c : Capture} {r : LineRange}
    (h : c.survives lines test minLines → c.span ≠ r) :
    firstSurvivor lines test minLines (c :: captures) r = firstSurvivor lines test minLines
      captures r + 1 := by
  have hother : (c.survives lines test minLines && decide (c.span = r)) = false := by
    rw [Bool.and_eq_false_iff, decide_eq_false_iff_not]
    cases hc : c.survives lines test minLines with
    | true => exact .inr (h hc)
    | false => exact .inl rfl
  simp [firstSurvivor, List.findIdx_cons, hother]

theorem chosen_filterMap_pairwise :
    (chosen lines test seen (captures.filterMap (Capture.candidate? minLines))).Pairwise fun a b =>
      firstSurvivor lines test minLines captures a < firstSurvivor lines test
        minLines captures b := by
  induction captures generalizing seen with
  | nil => exact .nil
  | cons c captures ih =>
    -- a capture that survives on none of the ranges moves all their first survivors by one
    have hshift : ∀ {seen : List LineRange}, (c.survives lines test minLines → c.span ∈ seen) →
        (chosen lines test seen (captures.filterMap (Capture.candidate? minLines))).Pairwise
          fun a b =>
          firstSurvivor lines test minLines (c :: captures) a < firstSurvivor lines test minLines
            (c :: captures) b := by
      intro seen hc
      have hne : ∀ r ∈ chosen lines test seen (captures.filterMap (Capture.candidate? minLines)),
          c.survives lines test minLines → c.span ≠ r := by
        rintro r hr hsurvives rfl
        exact (mem_chosen.mp hr).1 (hc hsurvives)
      refine (@ih seen).imp_of_mem fun {a b} ha hb hab => ?_
      rw [firstSurvivor_cons_of_ne (hne a ha), firstSurvivor_cons_of_ne (hne b hb)]
      exact Nat.succ_lt_succ hab
    by_cases hlong : c.isDefinition ∧ minLines ≤ c.span.size
    · have hcandidate : c.candidate? minLines = some ⟨c.span, c.isName⟩ := by
        simp [Capture.candidate?, hlong]
      rw [List.filterMap_cons_some hcandidate, chosen]
      split
      · rename_i hseen
        exact hshift fun _ => hseen
      · split
        · rename_i hinline
          refine hshift fun hsurvives => ?_
          simp_all [Capture.survives_iff]
        · rename_i hkept
          have hsurvives : c.survives lines test minLines := by
            rw [Capture.survives_iff]
            refine ⟨hlong.1, hlong.2, ?_⟩
            cases hname : c.isName <;> simp_all
          refine List.pairwise_cons.mpr ⟨fun r hr => ?_, hshift fun _ => .head _⟩
          have hne : c.span ≠ r := by
            rintro rfl
            exact (mem_chosen.mp hr).1 (.head _)
          rw [firstSurvivor_cons_self hsurvives, firstSurvivor_cons_of_ne fun _ => hne]
          exact Nat.succ_pos _
    · have hnone : c.candidate? minLines = none := by
        simpa [Capture.candidate?] using hlong
      rw [List.filterMap_cons_none hnone]
      refine hshift fun hsurvives => ?_
      obtain ⟨hdefinition, hsize, -⟩ := Capture.survives_iff.mp hsurvives
      exact absurd ⟨hdefinition, hsize⟩ hlong

end Choice

section Sorting

variable {α : Type} {le : α → α → Bool} (trans : ∀ a b c, le a b → le b c → le a c)
  (total : ∀ a b, le a b || le b a)

theorem takeWhile_of_cut {a : α} {xs ys : List α} (hxs : ∀ b ∈ xs, !le a b)
    (hys : ∀ b ∈ ys, le a b) : (xs ++ ys).takeWhile (fun b => !le a b) = xs := by
  rw [List.takeWhile_append_of_pos hxs]
  cases ys with
  | nil => simp
  | cons b ys => simp [hys b (.head _)]

include trans total

theorem exists_cut_mergeSort (a : α) (l : List α) : ∃ xs ys, (a :: l).mergeSort le = xs ++ a :: ys ∧
    l.mergeSort le = xs ++ ys ∧ (∀ b ∈ xs, !le a b) ∧ ∀ b ∈ ys, le a b := by
  obtain ⟨xs, ys, hsort, hrest, hxs⟩ := List.mergeSort_cons trans total a l
  have hsorted := List.pairwise_mergeSort trans total (a :: l)
  rw [hsort] at hsorted
  exact ⟨xs, ys, hsort, hrest, hxs, (List.pairwise_cons.mp (List.pairwise_append.mp hsorted).2.1).1⟩

theorem mergeSort_cons_of_cut {a : α} {l xs ys : List α} (hl : l.mergeSort le = xs ++ ys)
    (hxs : ∀ b ∈ xs, !le a b) (hys : ∀ b ∈ ys, le a b) : (a :: l).mergeSort le = xs ++ a :: ys := by
  obtain ⟨xs', ys', hsort, hl', hxs', hys'⟩ := exists_cut_mergeSort trans total a l
  have hcut : xs' ++ ys' = xs ++ ys := hl'.symm.trans hl
  have hbefore : xs' = xs := by
    rw [← takeWhile_of_cut hxs hys, ← hcut, takeWhile_of_cut hxs' hys']
  subst hbefore
  rw [hsort, List.append_cancel_left hcut]

theorem filter_mergeSort (p : α → Bool) (l : List α) :
    (l.mergeSort le).filter p = (l.filter p).mergeSort le := by
  induction l with
  | nil => simp
  | cons a l ih =>
    obtain ⟨xs, ys, hsort, hl, hxs, hys⟩ := exists_cut_mergeSort trans total a l
    rw [hl, List.filter_append] at ih
    rw [hsort, List.filter_append]
    cases hp : p a with
    | false =>
      rw [List.filter_cons_of_neg (by simp [hp]), List.filter_cons_of_neg (by simp [hp])]
      exact ih
    | true =>
      rw [List.filter_cons_of_pos hp, List.filter_cons_of_pos hp]
      symm
      apply mergeSort_cons_of_cut trans total ih.symm
      · exact fun b hb => hxs b (List.mem_of_mem_filter hb)
      · exact fun b hb => hys b (List.mem_of_mem_filter hb)

end Sorting

theorem filter_candidates (captures : List Capture) (minLines : Int) (p : Candidate → Bool) :
    (candidates minLines captures).filter p =
      ((captures.filterMap (Capture.candidate? minLines)).filter p).mergeSort
      fun a b => decide (a.range.first ≤ b.range.first) :=
  filter_mergeSort (by simp; omega) (by simp; omega) p _

theorem filter_candidates_line (captures : List Capture) (minLines : Int) (n : Int) :
    (candidates minLines captures).filter (fun c => decide (c.range.first = n)) =
      (captures.filterMap (Capture.candidate? minLines)).filter fun c =>
        decide (c.range.first = n) := by
  rw [filter_candidates]
  apply List.mergeSort_of_pairwise
  apply List.pairwise_of_forall_mem_list
  intro a ha b hb
  have ha := (List.mem_filter.mp ha).2
  have hb := (List.mem_filter.mp hb).2
  simp_all

theorem chosen_candidates_pairwise :
    (chosen lines test [] (candidates minLines captures)).Pairwise
      (ComesBefore lines test minLines captures) := by
  rw [List.pairwise_iff_forall_sublist]
  intro a b hab
  have hsorted : (candidates minLines captures).Pairwise fun a b =>
      a.range.first ≤ b.range.first := by
    have hpairwise : (candidates minLines captures).Pairwise fun a b =>
        decide (a.range.first ≤ b.range.first) :=
      List.pairwise_mergeSort (by simp; omega) (by simp; omega) _
    exact hpairwise.imp of_decide_eq_true
  have hle : a.first ≤ b.first := by
    have hranges : ((candidates minLines captures).map (·.range)).Pairwise fun a b =>
        a.first ≤ b.first :=
      List.pairwise_map.mpr hsorted
    exact (List.pairwise_cons.mp (hranges.sublist (hab.trans chosen_sublist))).1 b (.head _)
  rcases Int.lt_or_eq_of_le hle with hlt | heq
  · exact .inl hlt
  · refine .inr ⟨heq, ?_⟩
    -- on one first line the choice is that of the captures as they came
    have hline := hab.filter fun r => decide (r.first = a.first)
    rw [filter_chosen _ fun _ _ => Iff.rfl, filter_candidates_line,
      ← filter_chosen (fun r => decide (r.first = a.first)) fun _ _ => Iff.rfl] at hline
    have hsame : [a, b].filter (fun r => decide (r.first = a.first)) = [a, b] := by simp [heq]
    rw [hsame] at hline
    have hcaptured :
        (chosen lines test [] (captures.filterMap (Capture.candidate? minLines))).Pairwise
      fun a b =>
        firstSurvivor lines test minLines captures a < firstSurvivor lines test
          minLines captures b :=
      chosen_filterMap_pairwise
    exact (List.pairwise_cons.mp (hcaptured.sublist (hline.trans List.filter_sublist))).1 b
      (.head _)

/-- An outline lists the ranges of the captures that survive, each once, in the order of their first
lines and then of their first survivors, under the trimmed text of the first line; there is no
outline exactly when no capture survives. -/
theorem outline_of_survivors (captures : List Capture) (lines : List String) (minLines : Int)
    (test : String → Bool) (hmin : 1 ≤ minLines) (hstart : ∀ c ∈ captures, 0 ≤ c.span.first) :
    ∃ ds, synthesize captures lines minLines (.total test) = .ok ds ∧
      (∀ r, r ∈ listedRanges ds ↔ ∃ c ∈ captures, c.survives lines test minLines ∧ c.span = r) ∧
      (listedRanges ds).Nodup ∧
      (listedRanges ds).Pairwise (ComesBefore lines test minLines captures) ∧
      (∀ d ∈ ds.getD [], d.label = titleAt lines d.range.first) ∧
      (ds = none ↔ ∀ c ∈ captures, c.survives lines test minLines = false) := by
  obtain ⟨ds, hds, hnonempty, hranges⟩ := synthesize_chosen captures lines hmin test hstart
  obtain ⟨ds', hds', hnodup, hmem⟩ := synthesize_listedRanges captures lines hmin test hstart
  obtain rfl : ds = ds' := Except.ok.inj (hds.symm.trans hds')
  have hsurvivors : ∀ r, r ∈ listedRanges ds ↔ ∃ c ∈ captures, c.survives lines test minLines ∧
      c.span = r := by
    intro r
    rw [hmem]
    refine exists_congr fun c => and_congr_right fun _ => ?_
    rw [Capture.survives_iff]
    constructor
    · rintro ⟨hdefinition, rfl, hsize, hkept⟩
      exact ⟨⟨hdefinition, hsize, hkept⟩, rfl⟩
    · rintro ⟨⟨hdefinition, hsize, hkept⟩, rfl⟩
      exact ⟨hdefinition, rfl, hsize, hkept⟩
  refine ⟨ds, hds, hsurvivors, hnodup, ?_, fun d hd => ?_, ?_⟩
  · rw [hranges]
    exact chosen_candidates_pairwise
  · obtain ⟨⟨c, hc, hspan⟩, hlabel⟩ := of_mem_synthesize hds d hd
    rw [labelAt_of_nonneg lines (hspan ▸ hstart c hc)] at hlabel
    exact (Except.ok.inj hlabel).symm
  · constructor
    · rintro rfl c hc
      rw [Bool.eq_false_iff]
      intro hsurvives
      exact List.not_mem_nil ((hsurvivors c.span).mpr ⟨c, hc, hsurvives, rfl⟩)
    · intro hnone
      cases ds with
      | none => rfl
      | some listed =>
        cases listed with
        | nil => exact absurd rfl hnonempty
        | cons d rest =>
          obtain ⟨c, hc, hsurvives, -⟩ := (hsurvivors d.range).mp (.head _)
          rw [hnone c hc] at hsurvives
          cases hsurvives

/-- On the first line a block that the test leaves out and two names, the second of them on the
lines of that block and captured twice; a block past the last line, captured before one inside. -/
theorem outline_of_survivors_mixed :
    let lines := ["<div>", "", "  fn f", "end"]
    let captures : List Capture :=
      [⟨"definition.element", ⟨0, 3⟩, none, none⟩, ⟨"definition.past", ⟨7, 8⟩, none, none⟩,
       ⟨"name.definition.g", ⟨1, 1⟩, none, some ⟨⟨1, 1⟩, some ⟨0, 5⟩⟩⟩,
       ⟨"definition.f", ⟨2, 3⟩, none, none⟩,
       ⟨"name.definition.f", ⟨1, 1⟩, none, some ⟨⟨1, 1⟩, some ⟨0, 3⟩⟩⟩,
       ⟨"reference.f", ⟨1, 4⟩, none, none⟩,
       ⟨"definition.short", ⟨2, 2⟩, none, none⟩,
       ⟨"name.definition.f", ⟨1, 1⟩, none, some ⟨⟨1, 1⟩, some ⟨0, 3⟩⟩⟩]
    (1 : Int) ≤ 2 ∧ (∀ c ∈ captures, 0 ≤ c.span.first) ∧
      ∃ ds, synthesize captures lines 2 (.total (· == "<div>")) = .ok ds ∧
        listedRanges ds = [⟨0, 5⟩, ⟨0, 3⟩, ⟨2, 3⟩, ⟨7, 8⟩] := by
  intro lines captures
  have hstart : ∀ c ∈ captures, 0 ≤ c.span.first := by decide +kernel
  refine ⟨by decide, hstart, ?_⟩
  obtain ⟨ds, hds, hmem, hnodup, hordered, -, -⟩ :=
    outline_of_survivors captures lines 2 (· == "<div>") (by decide) hstart
  refine ⟨ds, hds, List.Perm.eq_of_pairwise ?_ hordered (by decide +kernel) ?_⟩
  · rintro a b - - (hab | ⟨heq, hab⟩) (hba | ⟨heq', hba⟩) <;> omega
  · rw [List.perm_ext_iff_of_nodup hnodup (by decide)]
    intro r
    have hsurvivors : (captures.filter (·.survives lines (· == "<div>") 2)).map Capture.span =
        [⟨7, 8⟩, ⟨0, 5⟩, ⟨2, 3⟩, ⟨0, 3⟩, ⟨0, 3⟩] := by decide +kernel
    have hlisted : r ∈ listedRanges ds ↔
        r ∈ (captures.filter (·.survives lines (· == "<div>") 2)).map Capture.span := by
      rw [hmem]
      simp only [List.mem_map, List.mem_filter, and_assoc]
    rw [hlisted, hsurvivors]
    simp only [List.mem_cons, List.not_mem_nil, or_false]
    grind

end SourceOutline
