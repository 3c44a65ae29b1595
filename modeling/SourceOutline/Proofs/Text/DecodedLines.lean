import Mathlib
import SourceOutline.Proofs.Extraction.File
import SourceOutline.Proofs.Outline.Spans
import SourceOutline.Proofs.Text.Lines

/-! Lines of decoded bytes. A line feed is a byte of its own, well-formed text around it or not: no
character that was started takes it in, and nothing else decodes to it. So cutting and decoding can
change places, and the rows that a syntax tree counts in the bytes are the lines of the decoded
text. -/
namespace SourceOutline.Text

variable {α : Type} [BEq α]

theorem cutAt_eq_splitOn (sep : α) (cs : List α) : cutAt sep cs = cs.splitOn sep := by
  induction cs with
  | nil => rfl
  | cons c cs ih =>
    rw [cutAt_cons, ih, List.splitOn_cons_eq_if_modifyHead]
    unfold cutStep
    split
    · rfl
    · split
      · rename_i h
        exact absurd h (List.splitOn_ne_nil sep cs)
      · rename_i h
        simp [h]

theorem head?_splitOn [LawfulBEq α] (sep : α) (cs : List α) :
    (cs.splitOn sep).head? = some (cs.takeWhile (· != sep)) := by
  induction cs with
  | nil => rfl
  | cons c cs ih =>
    rw [List.splitOn_cons_eq_if_modifyHead, List.takeWhile_cons]
    by_cases h : c = sep
    · simp [h]
    · simp [h, List.head?_modifyHead, ih]

theorem length_splitOn [LawfulBEq α] (sep : α) (cs : List α) :
    (cs.splitOn sep).length = cs.count sep + 1 := by
  induction cs with
  | nil => rfl
  | cons c cs ih =>
    rw [List.splitOn_cons_eq_if_modifyHead, List.count_cons]
    by_cases h : c = sep
    · simp [h, ih]
    · simp [h, ih]

theorem getElem?_splitOn_append [LawfulBEq α] (sep : α) (before after : List α) :
    ((before ++ after).splitOn sep)[before.count sep]? =
      some (before.rtakeWhile (· != sep) ++ after.takeWhile (· != sep)) := by
  induction before using List.reverseRecOn generalizing after with
  | nil => simp [← head?_splitOn, List.head?_eq_getElem?]
  | append_singleton before c ih =>
    rw [List.append_assoc, List.singleton_append, List.count_append, List.rtakeWhile_concat]
    by_cases h : c = sep
    · subst h
      rw [List.splitOn_append_cons_self, List.getElem?_append_right (by simp [length_splitOn])]
      simp [length_splitOn, ← head?_splitOn, List.head?_eq_getElem?]
    · simp [h, ih]

theorem getLast?_eq_sep_iff [LawfulBEq α] (sep : α) (cs : List α) :
    cs.getLast? = some sep ↔ 1 < (cs.splitOn sep).length ∧ (cs.splitOn sep).getLast? = some [] := by
  induction cs using List.reverseRecOn with
  | nil => simp
  | append_singleton cs c ih =>
    by_cases h : c = sep
    · subst h
      simp [List.splitOn_append_cons_self, length_splitOn]
    · have hlast : ((cs ++ [c]).splitOn sep).getLast? =
          some ((cs ++ [c]).rtakeWhile (· != sep)) := by
        have hplace := getElem?_splitOn_append sep (cs ++ [c]) []
        rw [List.append_nil, List.takeWhile_nil, List.append_nil] at hplace
        rw [List.getLast?_eq_getElem?, length_splitOn, Nat.add_sub_cancel, hplace]
      rw [hlast]
      simp [h]

end SourceOutline.Text

namespace SourceOutline.Text.Utf8

def lineFeed : UInt8 := 0x0A

/-- The bytes that a started character takes, and the numbers it can come to, are all past the line
feed. -/
def Pending.PastFeed (p : Pending) : Prop := 0x80 ≤ p.low ∧ 0x10 ≤ p.bits * 64 + (p.low - 0x80)

theorem ofNat_ne_feed {n : Nat} (h : n ≠ 0x0A) : Char.ofNat n ≠ '\n' := by
  intro heq
  unfold Char.ofNat at heq
  split at heq
  · exact h (congrArg Char.toNat heq)
  · exact absurd heq (by decide)

theorem first_cases (b : Nat) : first b = ([Char.ofNat b], none) ∨ first b = ([replacement], none) ∨
    ∃ p, first b = ([], some p) ∧ p.PastFeed := by
  generalize hr : first b = r
  unfold first at hr
  split at hr
  · exact .inl hr.symm
  split at hr
  · exact .inr (.inl hr.symm)
  split at hr
  · exact .inr (.inr ⟨_, hr.symm, Nat.le_refl _, by dsimp only; omega⟩)
  split at hr
  · exact .inr (.inr ⟨_, hr.symm, by decide, by decide⟩)
  split at hr
  · exact .inr (.inr ⟨_, hr.symm, by decide, by decide⟩)
  split at hr
  · rename_i hE0 _ _
    have hne : b ≠ 0xE0 := by simpa using hE0
    exact .inr (.inr ⟨_, hr.symm, Nat.le_refl _, by dsimp only; omega⟩)
  split at hr
  · exact .inr (.inr ⟨_, hr.symm, by decide, by decide⟩)
  split at hr
  · rename_i hF0 _
    have hne : b ≠ 0xF0 := by simpa using hF0
    exact .inr (.inr ⟨_, hr.symm, Nat.le_refl _, by dsimp only; omega⟩)
  split at hr
  · exact .inr (.inr ⟨_, hr.symm, by decide, by decide⟩)
  · exact .inr (.inl hr.symm)

theorem first_of_ne {b : Nat} (h : b ≠ 0x0A) :
    '\n' ∉ (first b).1 ∧ ∀ p ∈ (first b).2, p.PastFeed := by
  rcases first_cases b with hb | hb | ⟨p, hb, hp⟩
  · simp [hb, (ofNat_ne_feed h).symm]
  · simp [hb, replacement]
  · simp [hb, hp]

theorem next_of_ne {p : Pending} (hp : p.PastFeed) {b : Nat} (h : b ≠ 0x0A) :
    '\n' ∉ (next p b).1 ∧ ∀ q ∈ (next p b).2, q.PastFeed := by
  obtain ⟨hlow, hbits⟩ := hp
  unfold next
  split
  · rename_i hin
    have hpast : 0x10 ≤ p.bits * 64 + (b - 0x80) := by omega
    dsimp only
    split
    · have hne : p.bits * 64 + (b - 0x80) ≠ 0x0A := by omega
      simp [(ofNat_ne_feed hne).symm]
    · simp only [List.not_mem_nil, not_false_eq_true, Option.mem_some_iff, forall_eq', true_and]
      exact ⟨Nat.le_refl _, by dsimp only; omega⟩
  · obtain ⟨hout, hpending⟩ := first_of_ne h
    exact ⟨by simp [replacement, hout], hpending⟩

theorem step_of_ne {pending : Option Pending} (hp : ∀ p ∈ pending, p.PastFeed) {b : UInt8}
    (h : b ≠ lineFeed) : '\n' ∉ (step pending b).1 ∧ ∀ p ∈ (step pending b).2, p.PastFeed := by
  have hb : b.toNat ≠ 0x0A := fun heq => h (UInt8.toNat_inj.mp heq)
  cases pending with
  | none => exact first_of_ne hb
  | some p => exact next_of_ne (hp p rfl) hb

theorem step_lineFeed {pending : Option Pending} (hp : ∀ p ∈ pending, p.PastFeed) :
    step pending lineFeed = (decodeFrom pending [] ++ ['\n'], none) := by
  cases pending with
  | none => rfl
  | some p =>
    have hlow : ¬(p.low ≤ lineFeed.toNat ∧ lineFeed.toNat ≤ p.high) := by
      have hfeed : lineFeed.toNat = 0x0A := rfl
      have := (hp p rfl).1
      omega
    simp only [step, next, if_neg hlow]
    rfl

theorem decodeFrom_cons (pending : Option Pending) (b : UInt8) (bs : Bytes) :
    decodeFrom pending (b :: bs) = (step pending b).1 ++ decodeFrom (step pending b).2 bs := by
  cases pending <;> rfl

theorem feed_notMem_decodeFrom {bs : Bytes} (h : lineFeed ∉ bs) {pending : Option Pending}
    (hp : ∀ p ∈ pending, p.PastFeed) : '\n' ∉ decodeFrom pending bs := by
  induction bs generalizing pending with
  | nil => cases pending <;> simp [decodeFrom, replacement]
  | cons b bs ih =>
    obtain ⟨hb, hbs⟩ := not_or.mp (mt List.mem_cons.mpr h)
    obtain ⟨hout, hpending⟩ := step_of_ne hp (Ne.symm hb)
    rw [decodeFrom_cons, List.mem_append]
    exact not_or.mpr ⟨hout, ih hbs hpending⟩

theorem decodeFrom_append_lineFeed (bs more : Bytes) {pending : Option Pending}
    (hp : ∀ p ∈ pending, p.PastFeed) :
    decodeFrom pending (bs ++ lineFeed :: more) = decodeFrom pending
      bs ++ '\n' :: decodeChars more := by
  induction bs generalizing pending with
  | nil =>
    rw [List.nil_append, decodeFrom_cons, step_lineFeed hp]
    simp [decodeChars]
  | cons b bs ih =>
    rw [List.cons_append, decodeFrom_cons, decodeFrom_cons, List.append_assoc]
    congr 1
    apply ih
    by_cases hb : b = lineFeed
    · subst hb
      simp [step_lineFeed hp]
    · exact (step_of_ne hp hb).2

theorem decodeFrom_some_ne_nil (p : Pending) (bs : Bytes) : decodeFrom (some p) bs ≠ [] := by
  induction bs generalizing p with
  | nil => simp [decodeFrom]
  | cons b bs ih =>
    rw [decodeFrom_cons]
    simp only [step, next]
    split
    · split
      · simp
      · exact ih _
    · simp

theorem decodeChars_eq_nil_iff (bs : Bytes) : decodeChars bs = [] ↔ bs = [] := by
  cases bs with
  | nil => simp [decodeChars, decodeFrom]
  | cons b bs =>
    rw [decodeChars, decodeFrom_cons]
    rcases first_cases b.toNat with hb | hb | ⟨p, hb, -⟩ <;> simp [step, hb, decodeFrom_some_ne_nil]

theorem splitOn_decodeChars (bs : Bytes) :
    (decodeChars bs).splitOn '\n' = (bs.splitOn lineFeed).map decodeChars := by
  by_cases h : lineFeed ∈ bs
  · obtain ⟨line, more, hbs⟩ := List.append_of_mem h
    have hcut : decodeChars bs = decodeChars line ++ '\n' :: decodeChars more := by
      rw [hbs]
      exact decodeFrom_append_lineFeed line more (by simp)
    have hline := splitOn_decodeChars line
    have hmore := splitOn_decodeChars more
    rw [hcut, hbs, List.splitOn_append_cons_self, List.splitOn_append_cons_self,
      List.map_append, hline, hmore]
  · have hfree : '\n' ∉ decodeChars bs := feed_notMem_decodeFrom h (by simp)
    rw [List.splitOn_eq_singleton h, List.splitOn_eq_singleton hfree]
    rfl
termination_by bs.length
decreasing_by all_goals simp [hbs]; try omega

theorem getLast?_decodeChars (bs : Bytes) :
    (decodeChars bs).getLast? = some '\n' ↔ bs.getLast? = some lineFeed := by
  have hlast : ((bs.splitOn lineFeed).map decodeChars).getLast? = some [] ↔
      (bs.splitOn lineFeed).getLast? = some [] := by
    cases h : (bs.splitOn lineFeed).getLast? with
    | none => simp [h]
    | some piece => simp [h, decodeChars_eq_nil_iff]
  rw [getLast?_eq_sep_iff '\n', getLast?_eq_sep_iff lineFeed, splitOn_decodeChars,
    List.length_map, hlast]

theorem lineChars_eq (cs : List Char) : lineChars cs =
    if cs.getLast? = some '\n' then (cs.splitOn '\n').dropLast else cs.splitOn '\n' := by
  unfold lineChars dropFinalEmpty
  rw [cutAt_eq_splitOn]
  by_cases h : cs.getLast? = some '\n'
  · obtain ⟨hlength, hlast⟩ := (getLast?_eq_sep_iff '\n' cs).mp h
    simp [h, hlast, Nat.not_le.mpr hlength]
  · rw [if_neg h]
    split
    · rename_i hlast
      apply if_pos
      by_contra hlength
      exact h ((getLast?_eq_sep_iff '\n' cs).mpr ⟨Nat.not_le.mp hlength, hlast⟩)
    · rfl

theorem intercalate_lineChars (cs : List Char) :
    ['\n'].intercalate (lineChars cs) ++ (if cs.getLast? = some '\n' then ['\n'] else []) = cs := by
  rw [lineChars_eq]
  by_cases h : cs.getLast? = some '\n'
  · obtain ⟨init, rfl⟩ := List.getLast?_eq_some_iff.mp h
    rw [if_pos h, if_pos h, List.splitOn_append_cons_self, List.splitOn_nil, List.dropLast_concat,
      List.intercalate_splitOn]
  · rw [if_neg h, if_neg h, List.append_nil, List.intercalate_splitOn]

/-- The bytes of each line: the pieces between line feeds, less the nothing after a last one. -/
def byteLines (bs : Bytes) : List Bytes :=
  let pieces := bs.splitOn lineFeed
  if 1 < pieces.length ∧ pieces.getLast? = some [] then pieces.dropLast else pieces

theorem byteLines_eq (bs : Bytes) : byteLines bs =
    if bs.getLast? = some lineFeed then (bs.splitOn lineFeed).dropLast else bs.splitOn lineFeed :=
  if_congr (getLast?_eq_sep_iff lineFeed bs).symm rfl rfl

theorem lines_decode (bs : Bytes) : lines (decode bs) = (byteLines bs).map decode := by
  have hchars : lineChars (decodeChars bs) = (byteLines bs).map decodeChars := by
    rw [lineChars_eq, byteLines_eq, splitOn_decodeChars, apply_ite (List.map decodeChars),
      List.map_dropLast]
    exact if_congr (getLast?_decodeChars bs) rfl rfl
  unfold lines decode
  rw [String.toList_ofList, hchars, List.map_map]
  rfl

theorem intercalate_lines_decode (bs : Bytes) :
    "\n".intercalate (lines (decode bs)) ++
      (if bs.getLast? = some lineFeed then "\n" else "") = decode bs := by
  apply String.toList_inj.mp
  have hfeed : (if bs.getLast? = some lineFeed then "\n" else "").toList =
      if (decodeChars bs).getLast? = some '\n' then ['\n'] else [] := by
    rw [apply_ite String.toList]
    exact if_congr (getLast?_decodeChars bs).symm rfl rfl
  have htext : (decode bs).toList = decodeChars bs := String.toList_ofList
  have hlines : (lines (decode bs)).map String.toList = lineChars (decodeChars bs) := by
    unfold lines
    rw [List.map_map, htext]
    simp
  rw [String.toList_append, String.toList_intercalate, hlines, hfeed, htext]
  exact intercalate_lineChars (decodeChars bs)

/-- The bytes of the line on which a place lies, given what comes before and after the place. -/
def lineAround (before after : Bytes) : Bytes :=
  before.rtakeWhile (· != lineFeed) ++ after.takeWhile (· != lineFeed)

/-- The line on which a place lies, by the number of line feeds before it. After a line feed at the
very end there is no line, but nothing stands there either. -/
theorem getD_byteLines (before after : Bytes) :
    (byteLines (before ++ after)).getD (before.count lineFeed) [] = lineAround before after := by
  have hplace := getElem?_splitOn_append lineFeed before after
  rw [byteLines_eq, List.getD_eq_getElem?_getD]
  split
  · rename_i hlast
    have hempty := ((getLast?_eq_sep_iff lineFeed (before ++ after)).mp hlast).2
    rw [List.getElem?_dropLast]
    split
    · rw [hplace]
      rfl
    · have hlt := (List.getElem?_eq_some_iff.mp hplace).1
      have hindex : before.count lineFeed = ((before ++ after).splitOn lineFeed).length - 1 := by
        omega
      rw [hindex, ← List.getLast?_eq_getElem?, hempty] at hplace
      exact Option.some.inj hplace
  · rw [hplace]
    rfl

theorem titleAt_decode (before after : Bytes) :
    titleAt (lines (decode (before ++ after))) (before.count lineFeed) =
      trim (decode (lineAround before after)) := by
  unfold titleAt
  rw [lines_decode, ← getD_byteLines, Int.toNat_natCast, List.getD_eq_getElem?_getD,
    List.getD_eq_getElem?_getD, List.getElem?_map]
  cases (byteLines (before ++ after))[before.count lineFeed]? <;> rfl

end SourceOutline.Text.Utf8

namespace SourceOutline.Extractor

open Text Utf8

theorem synthesize_of_outlineWith {x : Extractor} {d : Disk} {p : Path} {l : Language}
    {g : Option LoadedGrammar} {s : Session} {content : Bytes} {o : Outline}
    (hread : d.read p = .ok content) (h : (x.outlineWith d p l g s).1 = .ok o) :
    ∃ captures, synthesize captures (lines (decode content)) x.limits.minLines x.lineTest =
      .ok o.definitions := by
  rw [fst_outlineWith] at h
  simp only [definitionsIn, hread] at h
  cases hcaptures : (x.capturesIn p l g content s).1 with
  | error e =>
    rw [hcaptures] at h
    cases h
  | ok captures =>
    refine ⟨captures, ?_⟩
    simp only [hcaptures, definitionsOf] at h
    cases hds : synthesize captures (lines (decode content)) x.limits.minLines x.lineTest with
    | error e =>
      rw [hds] at h
      cases h
    | ok ds =>
      rw [hds] at h
      cases h
      rfl

/-- Lines and rows agree, whatever the bytes: the lines of the decoded text are the lines of the
bytes, each decoded by itself; put together again they are the text; and a definition that starts in
a row, counted in line feeds before a place, has for its label the line on which the place lies. -/
theorem labels_follow_rows (content : Bytes) :
    lines (decode content) = (byteLines content).map decode ∧
    "\n".intercalate (lines (decode content)) ++
      (if content.getLast? = some lineFeed then "\n" else "") = decode content ∧
    ∀ (x : Extractor) (d : Disk) (p : Path) (l : Language) (g : Option LoadedGrammar)
      (s : Session) (o : Outline),
      d.read p = .ok content → (x.outlineWith d p l g s).1 = .ok o →
      ∀ definition ∈ o.definitions.getD [], ∀ before after, content = before ++ after →
        definition.range.first = before.count lineFeed →
          definition.label = trim (decode (lineAround before after)) ∧
          lineAround before after = (byteLines content).getD (before.count lineFeed) [] := by
  refine ⟨lines_decode content, intercalate_lines_decode content, ?_⟩
  intro x d p l g s o hread houtline definition hdefinition before after hcontent hrow
  obtain ⟨captures, hcaptures⟩ := synthesize_of_outlineWith hread houtline
  have hlabel := labelAt_of_mem_synthesize hcaptures definition hdefinition
  subst hcontent
  rw [hrow, labelAt_of_nonneg _ (Int.natCast_nonneg _), titleAt_decode] at hlabel
  exact ⟨(Except.ok.inj hlabel).symm, (getD_byteLines before after).symm⟩

def headingsOnly : Extractor where
  registry := ⟨[], fun _ _ => .ok (), fun _ _ => .ok []⟩
  parse := fun _ _ _ => .ok none
  search := fun _ _ _ _ => .ok []
  access := none
  lineTest := InlineMarkup.test
  limits := ⟨2, 2, by decide, by decide⟩

def brokenOff : Disk :=
  (Disk.empty []).put (Path.ofString "a.md") [0x23, 0x20, 0xE2, 0x82, 0x0A, 0x61, 0x0A, 0x23, 0x20,
    0x62, 0x0A, 0x63]

/-- The second heading keeps its row and its label, though the character before it is given up. -/
theorem labels_follow_rows_broken_off :
    let before := [0x23, 0x20, 0xE2, 0x82, 0x0A, 0x61, 0x0A]
    let after := [0x23, 0x20, 0x62, 0x0A, 0x63]
    let outcome :=
      (headingsOnly.outlineWith brokenOff (Path.ofString "a.md") .markdown none .start).1
    brokenOff.read (Path.ofString "a.md") = .ok (before ++ after) ∧
      ∃ o, outcome = .ok o ∧ ∃ definition ∈ o.definitions.getD [], definition.range.first = 2 ∧
        definition.label = trim (decode (lineAround before after)) := by
  intro before after outcome
  have hread : brokenOff.read (Path.ofString "a.md") = .ok (before ++ after) := by decide +kernel
  have houtline :
      (headingsOnly.outlineWith brokenOff (Path.ofString "a.md") .markdown none .start).1 =
      .ok ⟨Path.ofString "a.md", "markdown",
        some [⟨⟨0, 1⟩, "# \ufffd", by decide⟩, ⟨⟨2, 3⟩, "# b", by decide⟩]⟩ := by cbv
  obtain ⟨-, -, hlabels⟩ := labels_follow_rows (before ++ after)
  refine ⟨hread, _, houtline, ⟨⟨2, 3⟩, "# b", by decide⟩, by simp, rfl, ?_⟩
  exact (hlabels _ _ _ _ _ _ _ hread houtline _ (by simp) _ _ rfl rfl).1

end SourceOutline.Extractor
