import Mathlib.Data.List.TakeWhile
import SourceOutline.Markdown.Heading

/-! Where headings stand. An underline makes a heading of the line before it, so the scan looks one
line back; still no line becomes a heading twice, headings come in the order of their lines, and the
line of a heading is never blank. -/
namespace SourceOutline

theorem Text.trimChars_eq_nil_iff (cs : List Char) : trimChars cs = [] ↔ allBlank cs := by
  unfold trimChars trimBy dropRight allBlank
  rw [List.reverse_eq_nil_iff, List.dropWhile_eq_nil_iff, List.all_eq_true]
  constructor
  · intro hrest
    have hempty : cs.dropWhile isBlank = [] := by
      cases hdrop : cs.dropWhile isBlank with
      | nil => rfl
      | cons c rest =>
        have hhead := List.head?_dropWhile_not isBlank cs
        rw [hdrop] at hhead hrest
        have hblank := hrest c (by simp)
        simp [hblank] at hhead
    exact List.dropWhile_eq_nil_iff.mp hempty
  · intro hall c hc
    exact hall c ((List.dropWhile_suffix isBlank).subset (List.mem_reverse.mp hc))

namespace Markdown

def LineKind.isSolid : LineKind → Bool
  | .hashes _ => true
  | .underline _ => true
  | .text => true
  | _ => false

def ScanState.Consistent (s : ScanState) : Prop := s.text → s.fence = none

/-- The first line that can still become a heading: the next one, or the one before when that is
text. -/
def ScanState.firstOpen (s : ScanState) (line : Nat) : Nat := if s.text then line - 1 else line

/-- What one line can do: nothing but perhaps be text itself, be a heading, or make the line before
it one. -/
inductive Reading (s : ScanState) (line : Nat) (kind : LineKind) (next : ScanState) :
    Option Heading → Prop
  | plain (h : next.text → kind.isSolid) : Reading s line kind next none
  | heading (level : Nat) (hsolid : kind.isSolid) (h : next.text = false) :
      Reading s line kind next (some ⟨line, level⟩)
  | underlined (level : Nat) (htext : s.text) (h : next.text = false) :
      Reading s line kind next (some ⟨line - 1, level⟩)

theorem ScanState.step_reading {s : ScanState} (hs : s.Consistent) (line : Nat) (kind : LineKind) :
    (s.step line kind).1.Consistent ∧
      Reading s line kind (s.step line kind).1 (s.step line kind).2 := by
  obtain ⟨fence, text⟩ := s
  cases fence with
  | none =>
    cases kind with
    | fence f bare => exact ⟨nofun, .plain nofun⟩
    | hashes level => exact ⟨fun _ => rfl, .heading level rfl rfl⟩
    | underline level =>
      cases text with
      | false => exact ⟨fun _ => rfl, .plain fun _ => rfl⟩
      | true => exact ⟨fun _ => rfl, .underlined level rfl rfl⟩
    | text => exact ⟨fun _ => rfl, .plain fun _ => rfl⟩
    | blank => exact ⟨fun _ => rfl, .plain nofun⟩
  | some opened =>
    have htext : text = false := by
      cases text with
      | false => rfl
      | true => cases hs rfl
    subst htext
    cases kind with
    | fence f bare =>
      simp only [ScanState.step]
      split
      · exact ⟨fun _ => rfl, .plain nofun⟩
      · exact ⟨nofun, .plain nofun⟩
    | _ => exact ⟨nofun, .plain nofun⟩

/-- The headings that a scan finds from `line` on: in order, none before the first open line, each
on a solid line. -/
theorem headingsFrom_ordered (all kinds : List LineKind) {s : ScanState} {line : Nat}
    (hs : s.Consistent) (hkinds : all.drop line = kinds)
    (hprevious : s.text → 1 ≤ line ∧ ∃ kind, all[line - 1]? = some kind ∧ kind.isSolid) :
    (headingsFrom s line kinds).Pairwise (fun a b => a.line < b.line) ∧
      ∀ h ∈ headingsFrom s line kinds, s.firstOpen line ≤ h.line ∧
        ∃ kind, all[h.line]? = some kind ∧ kind.isSolid := by
  -- By the lines that are left; what carries over from the last one is that it is solid when it can
  -- be underlined.
  induction kinds generalizing s line with
  | nil => simp [headingsFrom]
  | cons kind rest ih =>
    have hkind : all[line]? = some kind := by
      rw [← List.head?_drop, hkinds]
      rfl
    have hrest : all.drop (line + 1) = rest := by
      rw [← List.tail_drop, hkinds]
      rfl
    obtain ⟨hconsistent, hreading⟩ := s.step_reading hs line kind
    rw [headingsFrom]
    generalize s.step line kind = result at hconsistent hreading
    obtain ⟨next, found⟩ := result
    dsimp only at hconsistent hreading
    cases hreading with
    | plain hsolid =>
      obtain ⟨hpairwise, hmem⟩ :=
        ih hconsistent hrest fun htext => ⟨by omega, kind, by simpa using hkind, hsolid htext⟩
      refine ⟨hpairwise, fun h hh => ?_⟩
      obtain ⟨hopen, hline⟩ := hmem h hh
      refine ⟨?_, hline⟩
      unfold ScanState.firstOpen at hopen ⊢
      split at hopen <;> split <;> omega
    | heading level hsolid hnext =>
      obtain ⟨hpairwise, hmem⟩ := ih hconsistent hrest (by simp [hnext])
      simp only [ScanState.firstOpen, hnext, Bool.false_eq_true, if_false] at hmem
      refine ⟨List.pairwise_cons.mpr ⟨fun h hh => (hmem h hh).1, hpairwise⟩, fun h hh => ?_⟩
      rcases List.mem_cons.mp hh with rfl | hh
      · refine ⟨?_, kind, hkind, hsolid⟩
        unfold ScanState.firstOpen
        split <;> dsimp only <;> omega
      · obtain ⟨hopen, hline⟩ := hmem h hh
        refine ⟨?_, hline⟩
        unfold ScanState.firstOpen
        split <;> omega
    | underlined level htext hnext =>
      obtain ⟨hone, hsolid⟩ := hprevious htext
      obtain ⟨hpairwise, hmem⟩ := ih hconsistent hrest (by simp [hnext])
      simp only [ScanState.firstOpen, hnext, Bool.false_eq_true, if_false] at hmem
      simp only [ScanState.firstOpen, htext, if_true]
      refine ⟨List.pairwise_cons.mpr ⟨fun h hh => ?_, hpairwise⟩, fun h hh => ?_⟩
      · have hopen := (hmem h hh).1
        dsimp only
        omega
      · rcases List.mem_cons.mp hh with rfl | hh
        · exact ⟨Nat.le_refl _, hsolid⟩
        · obtain ⟨hopen, hline⟩ := hmem h hh
          exact ⟨by omega, hline⟩

theorem fenceOf?_not_solid {mark : Char} {cs : List Char} {kind : LineKind}
    (h : fenceOf? mark cs = some kind) : kind.isSolid = false := by
  unfold fenceOf? at h
  dsimp only at h
  split at h
  · cases h
  · obtain ⟨rest, -, rfl⟩ := Option.map_eq_some_iff.mp h
    rfl

theorem fence?_not_solid {cs : List Char} {kind : LineKind} (h : fence? cs = some kind) :
    kind.isSolid = false := by
  unfold fence? at h
  dsimp only at h
  split at h
  · cases h
  · rcases Option.or_eq_some_iff.mp h with h | ⟨-, h⟩
    · exact fenceOf?_not_solid h
    · exact fenceOf?_not_solid h

theorem hashes?_of_allBlank {cs : List Char} (h : Text.allBlank cs) : hashes? cs = none := by
  have hrest : Text.allBlank (cs.drop (runLength '#' cs)) := by
    unfold Text.allBlank at h ⊢
    rw [List.all_eq_true] at h ⊢
    exact fun c hc => h c (List.mem_of_mem_drop hc)
  unfold hashes?
  simp [hrest]

theorem underlineOf?_of_allBlank {mark : Char} (hmark : Text.isBlank mark = false) (level : Nat)
    {cs : List Char} (h : Text.allBlank cs) : underlineOf? mark level cs = none := by
  have hsize : runLength mark cs = 0 := by
    cases cs with
    | nil => rfl
    | cons c cs =>
      have hc : Text.isBlank c := by
        unfold Text.allBlank at h
        exact List.all_eq_true.mp h c (.head _)
      have hne : (c == mark) = false := by
        apply beq_false_of_ne
        rintro rfl
        rw [hmark] at hc
        cases hc
      simp [runLength, hne]
  unfold underlineOf?
  simp [hsize]

theorem not_allBlank_of_isSolid {cs : List Char} (h : (LineKind.ofChars cs).isSolid) :
    Text.allBlank cs = false := by
  cases hblank : Text.allBlank cs with
  | false => rfl
  | true =>
    have hunderline : underline? cs = none := by
      unfold underline?
      rw [underlineOf?_of_allBlank (by decide) 1 hblank,
        underlineOf?_of_allBlank (by decide) 2 hblank]
      rfl
    unfold LineKind.ofChars at h
    rw [hashes?_of_allBlank hblank, hunderline, hblank] at h
    cases hfence : fence? cs with
    | none =>
      rw [hfence] at h
      cases h
    | some kind =>
      rw [hfence] at h
      exact absurd h (by simp [fence?_not_solid hfence])

def kindsOf (lines : List String) : List LineKind := lines.map fun line => .ofChars line.toList

theorem headings_eq (lines : List String) :
    headings lines = headingsFrom .start (contentStart (lines.map String.toList))
      ((kindsOf lines).drop (contentStart (lines.map String.toList))) := by
  unfold headings headingsOf kindsOf
  dsimp only
  rw [← List.map_drop, ← List.map_drop, List.map_map]
  rfl

theorem headings_spec (lines : List String) :
    (headings lines).Pairwise (fun a b => a.line < b.line) ∧
      ∀ h ∈ headings lines, ∃ kind, (kindsOf lines)[h.line]? = some kind ∧ kind.isSolid := by
  rw [headings_eq]
  obtain ⟨hpairwise, hmem⟩ := headingsFrom_ordered (kindsOf lines) _ (s := .start) nofun rfl nofun
  exact ⟨hpairwise, fun h hh => (hmem h hh).2⟩

theorem exists_title_of_mem_headings {lines : List String} {h : Heading} (hh : h ∈ headings lines) :
    ∃ line, lines[h.line]? = some line ∧ Text.trim line ≠ "" := by
  obtain ⟨kind, hkind, hsolid⟩ := (headings_spec lines).2 h hh
  unfold kindsOf at hkind
  rw [List.getElem?_map] at hkind
  obtain ⟨line, hline, rfl⟩ := Option.map_eq_some_iff.mp hkind
  refine ⟨line, hline, fun hempty => ?_⟩
  have hchars : Text.trimChars line.toList = [] := by
    rw [← Text.toList_trim, hempty]
    rfl
  rw [Text.trimChars_eq_nil_iff, not_allBlank_of_isSolid hsolid] at hchars
  cases hchars

end Markdown

end SourceOutline
