import Mathlib
import SourceOutline.Text.Case

/-! Lower case and the places of points. Nothing but a point becomes a point, and every character
becomes at least one; so a text and its lower case have their points in the same order, with
something or nothing between them alike. What stands around a piece of text shows in its lower case
only at a capital sigma. -/
namespace SourceOutline.Text

/-- The only character beyond ASCII with a lower case in ASCII: the sign for kelvins. -/
def kelvin : Nat := 0x212A

def CaseRun.staysBeyond (r : CaseRun) : Bool :=
  let low := r.first + r.delta
  let high := r.last + r.delta
  decide (0x80 ≤ low) &&
    (decide (high < 0xD800) || (decide (0xDFFF < low) && decide (high < 0x110000))) &&
    (decide (high < kelvin) || decide (kelvin < low))

theorem staysBeyond_or_kelvin : ∀ r ∈ caseRuns, r.staysBeyond ∨ r.first = kelvin ∧ r.last = kelvin ∧
    r.delta = -8383 := by
  decide +kernel

def IsLowered (c : Char) : Prop := (c.toNat < 0x80 → c.toLower = c) ∧ c.toNat ≠ kelvin

instance (c : Char) : Decidable (IsLowered c) := inferInstanceAs (Decidable (_ ∧ _))

theorem beyond_of_find? {c : Char} {r : CaseRun} (h : caseRuns.find? (·.holds c.toNat) = some r) :
    c.toNat = kelvin ∧ Char.ofNat (c.toNat + r.delta).toNat = 'k' ∨
      0x80 ≤ (Char.ofNat (c.toNat + r.delta).toNat).toNat ∧
        (Char.ofNat (c.toNat + r.delta).toNat).toNat ≠ kelvin := by
  have hholds := List.find?_some h
  simp only [CaseRun.holds, Bool.and_eq_true, decide_eq_true_eq] at hholds
  obtain ⟨⟨hfirst, hlast⟩, -⟩ := hholds
  rcases staysBeyond_or_kelvin r (List.mem_of_find?_eq_some h) with hbeyond | ⟨hlow, hhigh, hdelta⟩
  · right
    simp only [CaseRun.staysBeyond, Bool.and_eq_true, Bool.or_eq_true, decide_eq_true_eq] at hbeyond
    obtain ⟨⟨hascii, hvalid⟩, hkelvin⟩ := hbeyond
    have hchar : (c.toNat + r.delta).toNat.isValidChar := by
      unfold Nat.isValidChar
      omega
    rw [Char.toNat_ofNat, if_pos hchar]
    omega
  · left
    have hc : c.toNat = kelvin := by omega
    rw [hc, hdelta]
    exact ⟨rfl, by decide⟩

theorem isLowered_of_mem_lowerChar {a c : Char} (h : a ∈ lowerChar c) : IsLowered a := by
  unfold lowerChar at h
  split at h
  · rename_i hascii
    cases List.mem_singleton.mp h
    have hall : ∀ n < 0x80, IsLowered (Char.ofNat n).toLower := by decide
    simpa using hall c.toNat hascii
  · rename_i hbeyond
    split at h
    · rcases List.mem_pair.mp h with rfl | rfl <;> decide
    · split at h
      · rename_i r hr
        cases List.mem_singleton.mp h
        rcases beyond_of_find? hr with ⟨-, hk⟩ | ⟨hlow, hkelvin⟩
        · rw [hk]
          decide
        · exact ⟨fun hascii => absurd hascii (by omega), hkelvin⟩
      · rename_i hnone
        cases List.mem_singleton.mp h
        refine ⟨fun hascii => absurd hascii hbeyond, fun hkelvin => ?_⟩
        rw [hkelvin] at hnone
        exact absurd hnone (by decide +kernel)

theorem lowerChar_eq_self {c : Char} (h : IsLowered c)
    (hascii : ∀ a ∈ lowerChar c, a.toNat < 0x80) : lowerChar c = [c] := by
  unfold lowerChar at hascii ⊢
  split
  · rename_i hc
    rw [h.1 hc]
  · rename_i hc
    rw [if_neg hc] at hascii
    split
    · rename_i hdotted
      rw [if_pos hdotted] at hascii
      exact absurd (hascii '\u0307' (by simp)) (by decide)
    · rename_i hdotted
      rw [if_neg hdotted] at hascii
      split
      · rename_i r hr
        rw [hr] at hascii
        rcases beyond_of_find? hr with ⟨hkelvin, -⟩ | ⟨hbeyond, -⟩
        · exact absurd hkelvin h.2
        · exact absurd (hascii _ (.head _)) (by omega)
      · rfl

theorem toLower_eq_point_iff {c : Char} (h : c.toNat < 0x80) : c.toLower = '.' ↔ c = '.' := by
  have hall : ∀ n < 0x80, (Char.ofNat n).toLower = '.' ↔ Char.ofNat n = '.' := by decide
  simpa using hall c.toNat h

theorem point_mem_lowerChar_iff {c : Char} : '.' ∈ lowerChar c ↔ c = '.' := by
  unfold lowerChar
  split
  · rename_i hascii
    rw [List.mem_singleton, eq_comm, toLower_eq_point_iff hascii]
  · rename_i hbeyond
    have hne : c ≠ '.' := by
      rintro rfl
      exact hbeyond (by decide)
    refine iff_of_false ?_ hne
    split
    · decide
    · split
      · rename_i r hr
        rw [List.mem_singleton]
        intro hpoint
        rcases beyond_of_find? hr with ⟨-, hk⟩ | ⟨hlow, -⟩
        · exact absurd (hpoint.trans hk) (by decide)
        · rw [← hpoint] at hlow
          exact absurd hlow (by decide)
      · simpa using hne.symm

theorem lowerChar_ne_nil (c : Char) : lowerChar c ≠ [] := by
  unfold lowerChar
  split
  · simp
  · split
    · simp
    · split <;> simp

def lowerAt (before : List Char) (c : Char) (after : List Char) : List Char :=
  if c == 'Σ' then (if meetsCased before && !meetsCased after then ['ς'] else ['σ'])
    else lowerChar c

theorem lowerAfter_cons (before : List Char) (c : Char) (cs : List Char) :
    lowerAfter before (c :: cs) = lowerAt before c cs ++ lowerAfter (c :: before) cs := rfl

theorem lowerAt_sigma (before after : List Char) :
    lowerAt before 'Σ' after = ['ς'] ∨ lowerAt before 'Σ' after = ['σ'] := by
  unfold lowerAt
  rw [if_pos (by decide)]
  split
  · exact .inl rfl
  · exact .inr rfl

theorem lowerAt_of_ne {c : Char} (h : c ≠ 'Σ') (before after : List Char) :
    lowerAt before c after = lowerChar c := by
  simp [lowerAt, h]

theorem lowerAt_ne_nil (before : List Char) (c : Char) (after : List Char) :
    lowerAt before c after ≠ [] := by
  by_cases h : c = 'Σ'
  · subst h
    rcases lowerAt_sigma before after with hout | hout <;> simp [hout]
  · rw [lowerAt_of_ne h]
    exact lowerChar_ne_nil c

theorem point_mem_lowerAt_iff {before after : List Char} {c : Char} :
    '.' ∈ lowerAt before c after ↔ c = '.' := by
  by_cases h : c = 'Σ'
  · subst h
    refine iff_of_false ?_ (by decide)
    rcases lowerAt_sigma before after with hout | hout <;> rw [hout] <;> decide
  · rw [lowerAt_of_ne h, point_mem_lowerChar_iff]

theorem isLowered_of_mem_lowerAfter {a : Char} {before cs : List Char}
    (h : a ∈ lowerAfter before cs) : IsLowered a := by
  induction cs generalizing before with
  | nil => cases h
  | cons c cs ih =>
    rw [lowerAfter_cons] at h
    rcases List.mem_append.mp h with hhead | htail
    · by_cases hc : c = 'Σ'
      · subst hc
        rcases lowerAt_sigma before cs with hout | hout <;> rw [hout] at hhead <;>
          cases List.mem_singleton.mp hhead <;> decide
      · rw [lowerAt_of_ne hc] at hhead
        exact isLowered_of_mem_lowerChar hhead
    · exact ih htail

theorem eq_of_lowerAfter_eq {before cs out : List Char} (hcs : ∀ c ∈ cs, IsLowered c)
    (hascii : ∀ c ∈ out, c.toNat < 0x80) (h : lowerAfter before cs = out) : cs = out := by
  induction cs generalizing before out with
  | nil => exact h
  | cons c cs ih =>
    obtain ⟨hc, hcs⟩ := List.forall_mem_cons.mp hcs
    rw [lowerAfter_cons] at h
    subst h
    obtain ⟨hhead, htail⟩ := List.forall_mem_append.mp hascii
    have hsigma : c ≠ 'Σ' := by
      rintro rfl
      rcases lowerAt_sigma before cs with hout | hout <;> rw [hout] at hhead <;>
        exact absurd (hhead _ (.head _)) (by decide)
    rw [lowerAt_of_ne hsigma] at hhead ⊢
    rw [lowerChar_eq_self hc hhead, List.singleton_append, ← ih hcs htail rfl]

theorem point_mem_lowerAfter_iff {before cs : List Char} :
    '.' ∈ lowerAfter before cs ↔ '.' ∈ cs := by
  induction cs generalizing before with
  | nil => rfl
  | cons c cs ih =>
    rw [lowerAfter_cons, List.mem_append, point_mem_lowerAt_iff, ih, List.mem_cons, eq_comm]

theorem lowerAfter_append (before cs ds : List Char) :
    ∃ out, lowerAfter before (cs ++ ds) = out ++ lowerAfter (cs.reverse ++ before) ds ∧
      (out = [] ↔ cs = []) := by
  induction cs generalizing before with
  | nil => exact ⟨[], rfl, by simp⟩
  | cons c cs ih =>
    obtain ⟨out, hout, -⟩ := ih (c :: before)
    refine ⟨lowerAt before c (cs ++ ds) ++ out, ?_, by simp [lowerAt_ne_nil]⟩
    rw [List.cons_append, lowerAfter_cons, hout, List.append_assoc]
    simp

theorem lowerAfter_of_notMem {cs : List Char} (h : 'Σ' ∉ cs) (before : List Char) :
    lowerAfter before cs = cs.flatMap lowerChar := by
  induction cs generalizing before with
  | nil => rfl
  | cons c cs ih =>
    obtain ⟨hc, hcs⟩ := not_or.mp (mt List.mem_cons.mpr h)
    rw [lowerAfter_cons, lowerAt_of_ne (Ne.symm hc), ih hcs, List.flatMap_cons]

theorem sigma_mem_lowerAfter {cs : List Char} (h : 'Σ' ∈ cs) (before : List Char) :
    'ς' ∈ lowerAfter before cs ∨ 'σ' ∈ lowerAfter before cs := by
  induction cs generalizing before with
  | nil => cases h
  | cons c cs ih =>
    rw [lowerAfter_cons]
    rcases List.mem_cons.mp h with rfl | hmem
    · rcases lowerAt_sigma before cs with hout | hout <;> simp [hout]
    · exact (ih hmem (c :: before)).imp (List.mem_append_right _) (List.mem_append_right _)

theorem lowerAfter_eq_iff {target : List Char} (hfinal : 'ς' ∉ target) (hsmall : 'σ' ∉ target)
    (before before' cs : List Char) :
    lowerAfter before cs = target ↔ lowerAfter before' cs = target := by
  by_cases h : 'Σ' ∈ cs
  · have hne : ∀ before, lowerAfter before cs ≠ target := by
      rintro before rfl
      exact (sigma_mem_lowerAfter h before).elim hfinal hsmall
    exact iff_of_false (hne before) (hne before')
  · rw [lowerAfter_of_notMem h, lowerAfter_of_notMem h]

theorem lowerAfter_append_point (before cs : List Char) :
    lowerAfter (before ++ ['.']) cs = lowerAfter before cs := by
  have hmeets : ∀ before : List Char, meetsCased (before ++ ['.']) = meetsCased before := by
    intro before
    have hpoint : isCaseIgnorable '.' = true := by decide
    unfold meetsCased
    rw [List.dropWhile_append]
    cases hdrop : before.dropWhile isCaseIgnorable with
    | nil => simp [hpoint]
    | cons c rest => rfl
  induction cs generalizing before with
  | nil => rfl
  | cons c cs ih =>
    rw [lowerAfter_cons, lowerAfter_cons, ← List.cons_append, ih]
    simp only [lowerAt, hmeets]

theorem lowerChars_point (cs : List Char) : lowerChars ('.' :: cs) = '.' :: lowerChars cs :=
  congrArg (List.cons '.') (lowerAfter_append_point [] cs)

end SourceOutline.Text
