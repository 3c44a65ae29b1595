import Mathlib.Data.List.TakeWhile
import SourceOutline.Proofs.Markdown.Headings

/-! The shapes of Markdown lines, each given by how its characters are put together. A line has at
most one of them, and the kind of a line is the shape it has. -/
namespace SourceOutline.Markdown

/-- At most three spaces, a run of three or more fence marks, and a rest that does not go on with
the run. -/
structure FenceShape (cs : List Char) (f : Fence) (rest : List Char) : Prop where
  mark : f.mark = '\x60' ∨ f.mark = '~'
  size : 3 ≤ f.size
  shape : ∃ indent ≤ 3, cs = List.replicate indent ' ' ++ (List.replicate f.size f.mark ++ rest)
  whole : rest.head? ≠ some f.mark

/-- One to six hashes, then a blank, and later a character that is none. -/
structure HashShape (cs : List Char) (level : Nat) : Prop where
  pos : 1 ≤ level
  le : level ≤ 6
  shape : ∃ blank rest, cs = List.replicate level '#' ++ blank :: rest ∧ Text.isBlank blank ∧
    Text.allBlank rest = false

def underlineMark? : Nat → Option Char
  | 1 => some '='
  | 2 => some '-'
  | _ => none

/-- Three or more marks of one sort and nothing but blanks after them. -/
def UnderlineShape (cs : List Char) (level : Nat) : Prop :=
  ∃ mark size rest, underlineMark? level = some mark ∧ 3 ≤ size ∧
    cs = List.replicate size mark ++ rest ∧ Text.allBlank rest

section Run

variable {c : Char} {n : Nat} {cs rest : List Char}

theorem takeWhile_beq_eq_nil (h : cs.head? ≠ some c) : cs.takeWhile (· == c) = [] := by
  cases cs with
  | nil => rfl
  | cons d cs =>
    have hne : (d == c) = false := beq_false_of_ne fun heq => h (by rw [heq]; rfl)
    simp [hne]

theorem runLength_eq_zero (h : cs.head? ≠ some c) : runLength c cs = 0 := by
  rw [runLength, takeWhile_beq_eq_nil h, List.length_nil]

theorem runLength_replicate_append (h : rest.head? ≠ some c) :
    runLength c (List.replicate n c ++ rest) = n := by
  rw [runLength, List.takeWhile_append_of_pos (by simp), takeWhile_beq_eq_nil h, List.append_nil,
    List.length_replicate]

theorem drop_runLength (c : Char) (cs : List Char) :
    cs.drop (runLength c cs) = cs.dropWhile (· == c) := by
  calc cs.drop (runLength c cs)
      = (cs.takeWhile (· == c) ++ cs.dropWhile (· == c)).drop (runLength c cs) := by
        rw [List.takeWhile_append_dropWhile]
    _ = cs.dropWhile (· == c) := List.drop_left' rfl

theorem exists_run (c : Char) (cs : List Char) :
    ∃ rest, cs = List.replicate (runLength c cs) c ++ rest ∧ rest.head? ≠ some c ∧
      cs.drop (runLength c cs) = rest := by
  refine ⟨cs.dropWhile (· == c), ?_, fun hhead => ?_, drop_runLength c cs⟩
  · have hrun : cs.takeWhile (· == c) = List.replicate (runLength c cs) c := by
      refine List.eq_replicate_iff.mpr ⟨rfl, fun d hd => ?_⟩
      simpa using List.mem_takeWhile_imp hd
    rw [← hrun, List.takeWhile_append_dropWhile]
  · have hstop := List.head?_dropWhile_not (· == c) cs
    rw [hhead] at hstop
    simp at hstop

theorem drop_replicate_append : (List.replicate n c ++ rest).drop n = rest :=
  List.drop_left' (by simp)

end Run

section Kind

variable {cs : List Char} {kind : LineKind}

theorem fenceRest?_of_not_mem (h : '\n' ∉ cs) : fenceRest? cs = some cs := by
  have hlast : (cs.getLast? == some '\n') = false :=
    beq_false_of_ne fun hlast => h (List.mem_of_getLast? hlast)
  simp [fenceRest?, hlast, h]

theorem fenceOf?_eq_some_iff {mark : Char} (h : '\n' ∉ cs) : fenceOf? mark cs = some kind ↔
    ∃ size rest, 3 ≤ size ∧ cs = List.replicate size mark ++ rest ∧ rest.head? ≠ some mark ∧
      kind = .fence ⟨mark, size⟩ (Text.allBlank rest) := by
  unfold fenceOf?
  dsimp only
  constructor
  · intro hkind
    obtain ⟨rest, hshape, hhead, hdrop⟩ := exists_run mark cs
    split at hkind
    · cases hkind
    · rename_i hsize
      have hrest : '\n' ∉ rest := fun hmem => h (by rw [hshape]; exact List.mem_append_right _ hmem)
      rw [hdrop, fenceRest?_of_not_mem hrest] at hkind
      exact ⟨runLength mark cs, rest, by omega, hshape, hhead, (Option.some.inj hkind).symm⟩
  · rintro ⟨size, rest, hsize, rfl, hhead, rfl⟩
    have hrest : '\n' ∉ rest := fun hmem => h (List.mem_append_right _ hmem)
    rw [runLength_replicate_append hhead, drop_replicate_append, fenceRest?_of_not_mem hrest,
      if_neg (by omega)]
    rfl

theorem head?_replicate_append {c : Char} {n : Nat} {rest : List Char} (h : 1 ≤ n) :
    (List.replicate n c ++ rest).head? = some c := by
  obtain ⟨m, rfl⟩ := Nat.exists_eq_add_of_le' h
  rfl

theorem fence?_eq_some_iff (h : '\n' ∉ cs) :
    fence? cs = some kind ↔ ∃ f rest, FenceShape cs f rest ∧
      kind = .fence f (Text.allBlank rest) := by
  unfold fence?
  dsimp only
  constructor
  · intro hkind
    obtain ⟨tail, hindent, -, hdrop⟩ := exists_run ' ' cs
    have htail : '\n' ∉ tail := fun hmem => h (by rw [hindent]; exact List.mem_append_right _ hmem)
    split at hkind
    · cases hkind
    · rename_i hle
      rw [hdrop, Option.or_eq_some_iff, fenceOf?_eq_some_iff htail,
        fenceOf?_eq_some_iff htail] at hkind
      rcases hkind with
        ⟨size, rest, hsize, rfl, hhead, rfl⟩ | ⟨-, size, rest, hsize, rfl, hhead, rfl⟩
      · exact ⟨⟨'\x60', size⟩, rest, ⟨.inl rfl, hsize, ⟨_, by omega, hindent⟩, hhead⟩, rfl⟩
      · exact ⟨⟨'~', size⟩, rest, ⟨.inr rfl, hsize, ⟨_, by omega, hindent⟩, hhead⟩, rfl⟩
  · rintro ⟨⟨mark, size⟩, rest, ⟨hmark, hsize, ⟨indent, hle, rfl⟩, hhead⟩, rfl⟩
    dsimp only at hmark hsize hhead h ⊢
    have htail : '\n' ∉ List.replicate size mark ++ rest :=
      fun hmem => h (List.mem_append_right _ hmem)
    have hspace : (List.replicate size mark ++ rest).head? ≠ some ' ' := by
      rw [head?_replicate_append (by omega)]
      rcases hmark with rfl | rfl <;> decide
    rw [runLength_replicate_append hspace, drop_replicate_append, if_neg (by omega),
      Option.or_eq_some_iff, fenceOf?_eq_some_iff htail, fenceOf?_eq_some_iff htail]
    rcases hmark with rfl | rfl
    · exact .inl ⟨size, rest, hsize, rfl, hhead, rfl⟩
    · refine .inr ⟨?_, size, rest, hsize, rfl, hhead, rfl⟩
      have hrun : runLength '\x60' (List.replicate size '~' ++ rest) = 0 := by
        apply runLength_eq_zero
        rw [head?_replicate_append (by omega)]
        decide
      simp [fenceOf?, hrun]

theorem hashes?_eq_some_iff : hashes? cs = some kind ↔ ∃ level, HashShape cs level ∧
    kind = .hashes level := by
  unfold hashes?
  dsimp only
  constructor
  · intro hkind
    obtain ⟨rest, hshape, -, hdrop⟩ := exists_run '#' cs
    rw [hdrop] at hkind
    split at hkind
    · rename_i hall
      obtain ⟨hpos, hle, hblank, htext⟩ := hall
      cases rest with
      | nil => cases hblank
      | cons blank rest =>
        have hblank : Text.isBlank blank := by simpa using hblank
        refine ⟨_, ⟨hpos, hle, blank, rest, hshape, hblank, ?_⟩, (Option.some.inj hkind).symm⟩
        simpa [Text.allBlank, hblank] using htext
    · cases hkind
  · rintro ⟨level, ⟨hpos, hle, blank, rest, rfl, hblank, htext⟩, rfl⟩
    have hhead : (blank :: rest).head? ≠ some '#' := by
      rintro heq
      cases heq
      cases hblank
    rw [runLength_replicate_append hhead, drop_replicate_append]
    simp_all [Text.allBlank]

theorem underlineOf?_eq_some_iff {mark : Char} (hmark : Text.isBlank mark = false) {level : Nat} :
    underlineOf? mark level cs = some kind ↔
      kind = .underline level ∧ ∃ size rest, 3 ≤ size ∧ cs = List.replicate size mark ++ rest ∧
        Text.allBlank rest := by
  unfold underlineOf?
  dsimp only
  constructor
  · intro hkind
    obtain ⟨rest, hshape, -, hdrop⟩ := exists_run mark cs
    rw [hdrop] at hkind
    split at hkind
    · rename_i hall
      exact ⟨(Option.some.inj hkind).symm, _, rest, hall.1, hshape, hall.2⟩
    · cases hkind
  · rintro ⟨rfl, size, rest, hsize, rfl, hblank⟩
    have hhead : rest.head? ≠ some mark := by
      intro hhead
      have hmem := List.all_eq_true.mp hblank mark (List.mem_of_head? hhead)
      rw [hmark] at hmem
      cases hmem
    rw [runLength_replicate_append hhead, drop_replicate_append, if_pos ⟨hsize, hblank⟩]

theorem underline?_eq_some_iff : underline? cs = some kind ↔ ∃ level, UnderlineShape cs level ∧
    kind = .underline level := by
  unfold underline?
  rw [Option.or_eq_some_iff, underlineOf?_eq_some_iff (by decide),
    underlineOf?_eq_some_iff (by decide)]
  constructor
  · rintro (⟨rfl, size, rest, hshape⟩ | ⟨-, rfl, size, rest, hshape⟩)
    · exact ⟨1, ⟨'=', size, rest, rfl, hshape⟩, rfl⟩
    · exact ⟨2, ⟨'-', size, rest, rfl, hshape⟩, rfl⟩
  · rintro ⟨level, ⟨mark, size, rest, hmark, hsize, rfl, hblank⟩, rfl⟩
    match level, hmark with
    | 1, rfl => exact .inl ⟨rfl, size, rest, hsize, rfl, hblank⟩
    | 2, rfl =>
      refine .inr ⟨?_, rfl, size, rest, hsize, rfl, hblank⟩
      have hrun : runLength '=' (List.replicate size '-' ++ rest) = 0 := by
        apply runLength_eq_zero
        rw [head?_replicate_append (by omega)]
        decide
      simp [underlineOf?, hrun]

end Kind

section Disjoint

variable {cs : List Char} {level : Nat}

theorem FenceShape.head? {f : Fence} {rest : List Char} (h : FenceShape cs f rest) :
    cs.head? = some ' ' ∨ cs.head? = some '\x60' ∨ cs.head? = some '~' := by
  obtain ⟨hmark, hsize, ⟨indent, -, rfl⟩, -⟩ := h
  cases indent with
  | zero =>
    rw [List.replicate_zero, List.nil_append, head?_replicate_append (by omega)]
    exact .inr (hmark.imp (congrArg some) (congrArg some))
  | succ indent => exact .inl rfl

theorem HashShape.head? (h : HashShape cs level) : cs.head? = some '#' := by
  obtain ⟨hpos, -, blank, rest, rfl, -, -⟩ := h
  exact head?_replicate_append hpos

theorem UnderlineShape.head? (h : UnderlineShape cs level) :
    cs.head? = some '=' ∨ cs.head? = some '-' := by
  obtain ⟨mark, size, rest, hmark, hsize, rfl, -⟩ := h
  rw [head?_replicate_append (by omega)]
  match level, hmark with
  | 1, rfl => exact .inl rfl
  | 2, rfl => exact .inr rfl

theorem FenceShape.allBlank {f : Fence} {rest : List Char} (h : FenceShape cs f rest) :
    Text.allBlank cs = false := by
  obtain ⟨hmark, hsize, ⟨indent, -, rfl⟩, -⟩ := h
  have hmem : f.mark ∈ List.replicate indent ' ' ++ (List.replicate f.size f.mark ++ rest) := by
    have hrun : f.mark ∈ List.replicate f.size f.mark := List.mem_replicate.mpr ⟨by omega, rfl⟩
    exact List.mem_append_right _ (List.mem_append_left _ hrun)
  have hsolid : Text.isBlank f.mark = false := by
    rcases hmark with hmark | hmark <;> rw [hmark] <;> decide
  exact List.all_eq_false.mpr ⟨f.mark, hmem, by simp [hsolid]⟩

theorem HashShape.allBlank (h : HashShape cs level) : Text.allBlank cs = false := by
  rw [Bool.eq_false_iff]
  intro hblank
  have hhashes := hashes?_eq_some_iff.mpr ⟨level, h, rfl⟩
  rw [hashes?_of_allBlank hblank] at hhashes
  cases hhashes

theorem UnderlineShape.allBlank (h : UnderlineShape cs level) : Text.allBlank cs = false := by
  rw [Bool.eq_false_iff]
  intro hblank
  have hunderline := underline?_eq_some_iff.mpr ⟨level, h, rfl⟩
  rw [underline?, underlineOf?_of_allBlank (by decide) 1 hblank,
    underlineOf?_of_allBlank (by decide) 2 hblank] at hunderline
  cases hunderline

end Disjoint

inductive LineKind.Fits (cs : List Char) : LineKind → Prop
  | fence {f : Fence} {rest : List Char} (h : FenceShape cs f rest) :
      Fits cs (.fence f (Text.allBlank rest))
  | hashes {level : Nat} (h : HashShape cs level) : Fits cs (.hashes level)
  | underline {level : Nat} (h : UnderlineShape cs level) : Fits cs (.underline level)
  | blank (h : Text.allBlank cs) : Fits cs .blank
  | text (hblank : Text.allBlank cs = false) (hfence : ∀ f rest, ¬FenceShape cs f rest)
      (hhashes : ∀ level, ¬HashShape cs level) (hunderline : ∀ level, ¬UnderlineShape cs level) :
      Fits cs .text

section OfChars

variable {cs : List Char} (hcs : '\n' ∉ cs)

include hcs

theorem fits_ofChars : LineKind.Fits cs (.ofChars cs) := by
  unfold LineKind.ofChars
  cases hfence : fence? cs with
  | some kind =>
    obtain ⟨f, rest, hshape, rfl⟩ := (fence?_eq_some_iff hcs).mp hfence
    exact .fence hshape
  | none =>
    cases hhashes : hashes? cs with
    | some kind =>
      obtain ⟨level, hshape, rfl⟩ := hashes?_eq_some_iff.mp hhashes
      exact .hashes hshape
    | none =>
      cases hunderline : underline? cs with
      | some kind =>
        obtain ⟨level, hshape, rfl⟩ := underline?_eq_some_iff.mp hunderline
        exact .underline hshape
      | none =>
        cases hblank : Text.allBlank cs with
        | true => exact .blank hblank
        | false =>
          refine .text hblank (fun f rest hshape => ?_) (fun level hshape => ?_)
            (fun level hshape => ?_)
          · rw [(fence?_eq_some_iff hcs).mpr ⟨f, rest, hshape, rfl⟩] at hfence
            cases hfence
          · rw [hashes?_eq_some_iff.mpr ⟨level, hshape, rfl⟩] at hhashes
            cases hhashes
          · rw [underline?_eq_some_iff.mpr ⟨level, hshape, rfl⟩] at hunderline
            cases hunderline

theorem fence?_eq_none_of_head? (hspace : cs.head? ≠ some ' ') (htick : cs.head? ≠ some '\x60')
    (htilde : cs.head? ≠ some '~') : fence? cs = none := by
  rw [Option.eq_none_iff_forall_ne_some]
  intro kind hkind
  obtain ⟨f, rest, hshape, -⟩ := (fence?_eq_some_iff hcs).mp hkind
  rcases hshape.head? with h | h | h
  · exact hspace h
  · exact htick h
  · exact htilde h

theorem LineKind.Fits.eq {kind : LineKind} (h : LineKind.Fits cs kind) :
    LineKind.ofChars cs = kind := by
  cases h with
  | fence hshape =>
    rw [LineKind.ofChars, (fence?_eq_some_iff hcs).mpr ⟨_, _, hshape, rfl⟩]
    rfl
  | hashes hshape =>
    have hhead := hshape.head?
    rw [LineKind.ofChars, fence?_eq_none_of_head? hcs (by simp [hhead]) (by simp [hhead])
      (by simp [hhead]),
      hashes?_eq_some_iff.mpr ⟨_, hshape, rfl⟩]
    rfl
  | underline hshape =>
    have hhashes : hashes? cs = none := by
      rw [Option.eq_none_iff_forall_ne_some]
      intro kind hkind
      obtain ⟨level, hother, -⟩ := hashes?_eq_some_iff.mp hkind
      rcases hshape.head? with hhead | hhead <;> simp [hother.head?] at hhead
    have hfence : fence? cs = none := by
      rcases hshape.head? with hhead | hhead <;>
        exact fence?_eq_none_of_head? hcs (by simp [hhead]) (by simp [hhead]) (by simp [hhead])
    rw [LineKind.ofChars, hfence, hhashes, underline?_eq_some_iff.mpr ⟨_, hshape, rfl⟩]
    rfl
  | blank hblank =>
    have hfits := fits_ofChars hcs
    generalize LineKind.ofChars cs = kind at hfits
    cases hfits with
    | fence h => simp [h.allBlank] at hblank
    | hashes h => simp [h.allBlank] at hblank
    | underline h => simp [h.allBlank] at hblank
    | blank h => rfl
    | text h => simp [h] at hblank
  | text hblank hfence hhashes hunderline =>
    have hfits := fits_ofChars hcs
    generalize LineKind.ofChars cs = kind at hfits
    cases hfits with
    | fence h => exact absurd h (hfence _ _)
    | hashes h => exact absurd h (hhashes _)
    | underline h => exact absurd h (hunderline _)
    | blank h => simp [h] at hblank
    | text => rfl

theorem LineKind.Fits.unique {kind kind' : LineKind} (h : LineKind.Fits cs kind)
    (h' : LineKind.Fits cs kind') : kind = kind' := by
  rw [← h.eq hcs, h'.eq hcs]

end OfChars

end SourceOutline.Markdown
