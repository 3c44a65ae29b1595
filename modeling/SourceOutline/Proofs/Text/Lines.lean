import SourceOutline.Text.Lines

/-! What lines are made of: pieces of the text without the line feed that ends them. When lines end
with a carriage return and a line feed, the return stays in the line. -/
namespace SourceOutline.Text

variable {α : Type}

theorem notMem_of_mem_cutAt [BEq α] [LawfulBEq α] {sep : α} {cs piece : List α}
    (h : piece ∈ cutAt sep cs) : sep ∉ piece := by
  induction cs generalizing piece with
  | nil =>
    rw [cutAt_nil, List.mem_singleton] at h
    simp [h]
  | cons c cs ih =>
    rw [cutAt_cons] at h
    unfold cutStep at h
    split at h
    · rcases List.mem_cons.mp h with rfl | h
      · simp
      · exact ih h
    · rename_i hc
      have hne : sep ≠ c := fun heq => hc (by simp [heq])
      split at h
      · rename_i hnil
        exact absurd hnil (cutAt_ne_nil sep cs)
      · rename_i first rest hcut
        rcases List.mem_cons.mp h with rfl | h
        · simpa [hne] using ih (hcut ▸ .head _)
        · exact ih (hcut ▸ .tail _ h)

theorem feed_notMem_lines {text line : String} (h : line ∈ lines text) : '\n' ∉ line.toList := by
  obtain ⟨cs, hcs, rfl⟩ := List.mem_map.mp h
  rw [String.toList_ofList]
  have hpiece : cs ∈ cutAt '\n' text.toList := by
    unfold lineChars dropFinalEmpty at hcs
    split at hcs
    · split at hcs
      · exact hcs
      · exact (List.dropLast_sublist _).mem hcs
    · exact hcs
  exact notMem_of_mem_cutAt hpiece

theorem dropFinalEmpty_concat (before : List (List α)) (last : List α) :
    dropFinalEmpty (before ++ [last]) =
    if last.isEmpty && !before.isEmpty then before else before ++ [last] := by
  unfold dropFinalEmpty
  rw [List.getLast?_concat]
  cases last with
  | nil =>
    dsimp only
    rw [List.dropLast_concat]
    cases before <;> simp
  | cons c last => simp

/-- The text with a carriage return before each line feed. -/
def withReturns (text : String) : String :=
  String.ofList (text.toList.flatMap fun c => if c = '\n' then ['\r', '\n'] else [c])

theorem cutAt_withReturns (cs : List Char) : ∃ before last, cutAt '\n' cs = before ++ [last] ∧
    cutAt '\n' (cs.flatMap fun c => if c = '\n' then ['\r', '\n'] else [c]) =
      before.map (· ++ ['\r']) ++ [last] := by
  induction cs with
  | nil => exact ⟨[], [], rfl, rfl⟩
  | cons c cs ih =>
    obtain ⟨before, last, hcut, hreturns⟩ := ih
    rw [List.flatMap_cons, cutAt_cons, hcut]
    by_cases hc : c = '\n'
    · subst hc
      refine ⟨[] :: before, last, by simp [cutStep], ?_⟩
      simp [hreturns, cutStep]
    · rw [if_neg hc, List.singleton_append, cutAt_cons, hreturns]
      cases before with
      | nil => exact ⟨[], c :: last, by simp [cutStep, hc], by simp [cutStep, hc]⟩
      | cons piece before =>
        exact ⟨(c :: piece) :: before, last, by simp [cutStep, hc], by simp [cutStep, hc]⟩

theorem lines_withReturns (text : String) :
    ∃ before last : List String, lines text = before ++ last ∧
    lines (withReturns text) = before.map (· ++ "\r") ++ last := by
  obtain ⟨before, last, hcut, hreturns⟩ := cutAt_withReturns text.toList
  have hempty : (before.map (· ++ ['\r'])).isEmpty = before.isEmpty := List.isEmpty_map
  have hreturn : (fun s : String => s ++ "\r") ∘ String.ofList = String.ofList ∘ (· ++ ['\r']) := by
    funext piece
    exact String.ofList_append.symm
  unfold lines lineChars withReturns
  rw [String.toList_ofList, hcut, hreturns, dropFinalEmpty_concat, dropFinalEmpty_concat, hempty]
  split
  · exact ⟨before.map String.ofList,
      [], by simp, by rw [List.append_nil, List.map_map, List.map_map, hreturn]⟩
  · exact ⟨before.map String.ofList, [String.ofList last], by simp, by
      rw [List.map_append, List.map_map, List.map_map, hreturn, List.map_singleton]⟩

end SourceOutline.Text
