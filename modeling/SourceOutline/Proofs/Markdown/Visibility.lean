import SourceOutline.Proofs.Markdown.LineShapes

/-! Which lines are headings, said line by line and without a scan. A block of code opens at a fence
when none is open and ends at the first fence that closes it; lines outside of blocks, fences and
metadata are visible; a heading is a visible line with hashes or one that a visible underline
follows. The scan finds exactly these, because its state tells of each line whether a block is open
before it and whether the line above can be underlined. -/
namespace SourceOutline.Markdown

def charsAt (lines : List String) (i : Nat) : List Char := (lines.getD i "").toList

/-- Line `j` is a fence that ends a block opened at line `i`: of the same mark, at least as long,
and bare. -/
def Closes (lines : List String) (i j : Nat) : Prop :=
  ∃ f rest g rest', FenceShape (charsAt lines i) f rest ∧ FenceShape (charsAt lines j) g rest' ∧
    g.mark = f.mark ∧ f.size ≤ g.size ∧ Text.allBlank rest'

def contentLine (lines : List String) : Nat := contentStart (lines.map String.toList)

/-- A block opens at line `i` of the content: a fence, and every block opened before is closed
before. -/
def Opens (lines : List String) (i : Nat) : Prop :=
  contentLine lines ≤ i ∧ (∃ f rest, FenceShape (charsAt lines i) f rest) ∧
    ∀ j, (h : j < i) → Opens lines j → ∃ k, j < k ∧ k < i ∧ Closes lines j k
termination_by i

def OpenBefore (lines : List String) (i : Nat) : Prop :=
  ∃ j < i, Opens lines j ∧ ∀ k, j < k → k < i → ¬Closes lines j k

structure Visible (lines : List String) (i : Nat) : Prop where
  content : contentLine lines ≤ i
  lt : i < lines.length
  notFence : ∀ f rest, ¬FenceShape (charsAt lines i) f rest
  notInside : ¬OpenBefore lines i

/-- Line `i` is used as an underline: it looks like one, and the line above is visible text that is
none itself. -/
def Underlines (lines : List String) : Nat → Prop
  | 0 => False
  | i + 1 => Visible lines (i + 1) ∧ (∀ level, ¬HashShape (charsAt lines (i + 1)) level) ∧
      (∃ level, UnderlineShape (charsAt lines (i + 1)) level) ∧
      Visible lines i ∧ Text.allBlank (charsAt lines i) = false ∧
        (∀ level, ¬HashShape (charsAt lines i) level) ∧
      ¬Underlines lines i

structure Underlinable (lines : List String) (i : Nat) : Prop where
  visible : Visible lines i
  notBlank : Text.allBlank (charsAt lines i) = false
  notHashes : ∀ level, ¬HashShape (charsAt lines i) level
  notUsed : ¬Underlines lines i

/-- What line `i` makes a heading of: itself, or the line above. -/
def Makes (lines : List String) (i : Nat) (h : Heading) : Prop :=
  (h.line = i ∧ Visible lines i ∧ HashShape (charsAt lines i) h.level) ∨
    (h.line + 1 = i ∧ Underlines lines i ∧ UnderlineShape (charsAt lines i) h.level)

variable {lines : List String} {i j : Nat}

theorem underlines_succ_iff : Underlines lines (i + 1) ↔
    Visible lines (i + 1) ∧ (∀ level, ¬HashShape (charsAt lines (i + 1)) level) ∧
      (∃ level, UnderlineShape (charsAt lines (i + 1)) level) ∧ Underlinable lines i := by
  rw [Underlines]
  refine and_congr_right fun _ => and_congr_right fun _ => and_congr_right fun _ => ?_
  exact ⟨fun ⟨hv, hb, hh, hu⟩ => ⟨hv, hb, hh, hu⟩, fun ⟨hv, hb, hh, hu⟩ => ⟨hv, hb, hh, hu⟩⟩

theorem opens_iff : Opens lines i ↔
    contentLine lines ≤ i ∧ (∃ f rest, FenceShape (charsAt lines i) f rest) ∧
      ¬OpenBefore lines i := by
  rw [Opens, OpenBefore]
  refine and_congr_right fun _ => and_congr_right fun _ => ?_
  simp only [not_exists, not_and, not_forall, not_not, exists_prop]

theorem eq_of_open {j' : Nat} (hj : Opens lines j) (hj' : Opens lines j') (hlt : j < i)
    (hlt' : j' < i) (hopen : ∀ k, j < k → k < i → ¬Closes lines j k)
    (hopen' : ∀ k, j' < k → k < i → ¬Closes lines j' k) : j = j' := by
  rcases Nat.lt_trichotomy j j' with h | h | h
  · exact absurd ⟨j, h, hj, fun k hk hk' => hopen k hk (by omega)⟩ (opens_iff.mp hj').2.2
  · exact h
  · exact absurd ⟨j', h, hj', fun k hk hk' => hopen' k hk (by omega)⟩ (opens_iff.mp hj).2.2

theorem openBefore_succ_iff (hfence : ∀ f rest, ¬FenceShape (charsAt lines i) f rest) :
    OpenBefore lines (i + 1) ↔ OpenBefore lines i := by
  constructor
  · rintro ⟨j, hlt, hj, hopen⟩
    have hne : j ≠ i := by
      rintro rfl
      obtain ⟨-, ⟨f, rest, hshape⟩, -⟩ := opens_iff.mp hj
      exact hfence f rest hshape
    exact ⟨j, by omega, hj, fun k hk hk' => hopen k hk (by omega)⟩
  · rintro ⟨j, hlt, hj, hopen⟩
    refine ⟨j, by omega, hj, fun k hk hk' hcloses => ?_⟩
    rcases Nat.lt_or_eq_of_le (Nat.le_of_lt_succ hk') with hk' | rfl
    · exact hopen k hk hk' hcloses
    · obtain ⟨-, -, g, rest', -, hshape, -⟩ := hcloses
      exact hfence g rest' hshape

theorem not_visible_of_openBefore_succ (h : OpenBefore lines (i + 1)) : ¬Visible lines i := by
  intro hvisible
  exact hvisible.notInside ((openBefore_succ_iff hvisible.notFence).mp h)

structure ScanState.Tells (lines : List String) (i : Nat) (s : ScanState) : Prop where
  closed : s.fence = none → ¬OpenBefore lines i
  opened : ∀ f, s.fence = some f → ∃ j < i, Opens lines j ∧
    (∃ rest, FenceShape (charsAt lines j) f rest) ∧
    ∀ k, j < k → k < i → ¬Closes lines j k
  text : s.text ↔ ∃ j, j + 1 = i ∧ Underlinable lines j

section Step

variable {s : ScanState} (hchars : ∀ i, '\n' ∉ charsAt lines i) (hs : s.Tells lines i)

include hs in
theorem ScanState.Tells.openBefore {f : Fence} (hfence : s.fence = some f) :
    OpenBefore lines i := by
  obtain ⟨j, hlt, hj, -, hopen⟩ := hs.opened f hfence
  exact ⟨j, hlt, hj, hopen⟩

include hs in
theorem ScanState.Tells.text_of_fence {f : Fence} (hfence : s.fence = some f) : s.text = false := by
  rw [Bool.eq_false_iff]
  intro htext
  obtain ⟨j, rfl, hj⟩ := hs.text.mp htext
  exact not_visible_of_openBefore_succ (hs.openBefore hfence) hj.visible

theorem not_makes_of_not_visible (h : ¬Visible lines i) (heading : Heading) :
    ¬Makes lines i heading := by
  rintro (⟨-, hvisible, -⟩ | ⟨hline, hused, -⟩)
  · exact h hvisible
  · subst hline
    exact h (underlines_succ_iff.mp hused).1

theorem underlinable_above_iff :
    (∃ j, j + 1 = i + 1 ∧ Underlinable lines j) ↔ Underlinable lines i := by
  constructor
  · rintro ⟨j, hj, h⟩
    obtain rfl : j = i := by omega
    exact h
  · intro h
    exact ⟨i, rfl, h⟩

include hchars in
theorem closes_iff {f g : Fence} {rest rest' : List Char} (hf : FenceShape (charsAt lines j) f rest)
    (hg : FenceShape (charsAt lines i) g rest') :
    Closes lines j i ↔ f.closes g (Text.allBlank rest') := by
  unfold Fence.closes
  rw [Bool.and_eq_true, Bool.and_eq_true, beq_iff_eq, decide_eq_true_eq, and_assoc]
  constructor
  · rintro ⟨f', _, g', _, hf', hg', hclosing⟩
    injection LineKind.Fits.unique (hchars j) (.fence hf) (.fence hf') with hopened
    injection LineKind.Fits.unique (hchars i) (.fence hg) (.fence hg') with hfence hbare
    rwa [hopened, hfence, hbare]
  · intro hclosing
    exact ⟨f, rest, g, rest', hf, hg, hclosing⟩

include hchars hs in
theorem ScanState.Tells.step_fence (hcontent : contentLine lines ≤ i) {f : Fence} {rest : List Char}
    (hshape : FenceShape (charsAt lines i) f rest) :
    (s.step i (.fence f (Text.allBlank rest))).1.Tells lines (i + 1) := by
  have hhidden : ¬Underlinable lines i := fun h => h.visible.notFence f rest hshape
  cases hfence : s.fence with
  | none =>
    simp only [ScanState.step, hfence]
    refine ⟨fun hnone => (by cases hnone), ?_, ?_⟩
    · intro g hg
      cases hg
      have hopens : Opens lines i := opens_iff.mpr ⟨hcontent, ⟨_, rest, hshape⟩, hs.closed hfence⟩
      exact ⟨i, Nat.lt_succ_self i, hopens, ⟨rest, hshape⟩, fun k hk hk' => by omega⟩
    · rw [underlinable_above_iff]
      simp [hhidden]
  | some opened =>
    obtain ⟨j, hlt, hj, ⟨rest', hshape'⟩, hopen⟩ := hs.opened opened hfence
    have hcloses := closes_iff hchars hshape' hshape
    simp only [ScanState.step, hfence]
    split
    · rename_i hclosing
      refine ⟨fun _ => ?_, fun g hg => (by cases hg), ?_⟩
      · rintro ⟨j', hlt', hj', hopen'⟩
        rcases Nat.lt_or_eq_of_le (Nat.le_of_lt_succ hlt') with hlt' | rfl
        · obtain rfl := eq_of_open hj hj' hlt hlt' hopen fun k hk hk' => hopen' k hk (by omega)
          exact hopen' i hlt (Nat.lt_succ_self i) (hcloses.mpr hclosing)
        · exact (opens_iff.mp hj').2.2 ⟨j, hlt, hj, hopen⟩
      · rw [underlinable_above_iff]
        simp [hhidden]
    · rename_i hstays
      refine ⟨fun hnone => ?_, fun g hg => ?_, ?_⟩
      · rw [hfence] at hnone
        cases hnone
      · obtain rfl : opened = g := Option.some.inj (hfence.symm.trans hg)
        refine ⟨j, by omega, hj, ⟨rest', hshape'⟩, fun k hk hk' => ?_⟩
        rcases Nat.lt_or_eq_of_le (Nat.le_of_lt_succ hk') with hk' | rfl
        · exact hopen k hk hk'
        · exact fun h => hstays (hcloses.mp h)
      · rw [underlinable_above_iff, hs.text_of_fence hfence]
        simp [hhidden]

include hs in
theorem ScanState.Tells.step_inside {f : Fence} (hfence : s.fence = some f)
    (hother : ∀ f rest, ¬FenceShape (charsAt lines i) f rest) : s.Tells lines (i + 1) := by
  refine ⟨fun hnone => ?_, fun g hg => ?_, ?_⟩
  · rw [hfence] at hnone
    cases hnone
  · obtain ⟨j, hlt, hj, hshape, hopen⟩ := hs.opened g hg
    refine ⟨j, by omega, hj, hshape, fun k hk hk' hcloses => ?_⟩
    rcases Nat.lt_or_eq_of_le (Nat.le_of_lt_succ hk') with hk' | rfl
    · exact hopen k hk hk' hcloses
    · obtain ⟨-, -, g, rest, -, hshape, -⟩ := hcloses
      exact hother g rest hshape
  · rw [underlinable_above_iff, hs.text_of_fence hfence]
    have hhidden : ¬Underlinable lines i := fun h => h.visible.notInside (hs.openBefore hfence)
    simp [hhidden]

theorem ScanState.tells_of_visible (hvisible : Visible lines i) {text : Bool}
    (htext : text ↔ Underlinable lines i) : ScanState.Tells lines (i + 1) ⟨none, text⟩ := by
  refine ⟨fun _ => ?_, nofun, ?_⟩
  · rw [openBefore_succ_iff hvisible.notFence]
    exact hvisible.notInside
  · rw [underlinable_above_iff]
    exact htext

theorem not_makes_of_shapes (hhashes : ∀ level, ¬HashShape (charsAt lines i) level)
    (hused : ¬Underlines lines i) (heading : Heading) : ¬Makes lines i heading := by
  rintro (⟨-, -, hshape⟩ | ⟨-, hunderlines, -⟩)
  · exact hhashes _ hshape
  · exact hused hunderlines

include hchars in
theorem makes_iff_of_hashes (hvisible : Visible lines i) {level : Nat}
    (hshape : HashShape (charsAt lines i) level) (heading : Heading) :
    Makes lines i heading ↔ heading = ⟨i, level⟩ := by
  constructor
  · rintro (⟨rfl, -, hshape'⟩ | ⟨rfl, hused, -⟩)
    · injection LineKind.Fits.unique (hchars _) (.hashes hshape') (.hashes hshape) with hlevel
      rw [← hlevel]
    · exact absurd hshape ((underlines_succ_iff.mp hused).2.1 level)
  · rintro rfl
    exact .inl ⟨rfl, hvisible, hshape⟩

include hchars in
theorem makes_iff_of_underlines (hused : Underlines lines i) {level : Nat}
    (hshape : UnderlineShape (charsAt lines i) level) (heading : Heading) :
    Makes lines i heading ↔ heading = ⟨i - 1, level⟩ := by
  constructor
  · rintro (⟨-, -, hshape'⟩ | ⟨rfl, -, hshape'⟩)
    · cases LineKind.Fits.unique (hchars i) (.hashes hshape') (.underline hshape)
    · injection LineKind.Fits.unique (hchars _) (.underline hshape') (.underline hshape) with hlevel
      rw [← hlevel]
      rfl
  · rintro rfl
    have hpos : i - 1 + 1 = i := by
      cases i with
      | zero => exact hused.elim
      | succ i => rfl
    exact .inr ⟨hpos, hused, hshape⟩

theorem exists_shape_of_underlines (h : Underlines lines i) :
    ∃ level, UnderlineShape (charsAt lines i) level := by
  cases i with
  | zero => exact h.elim
  | succ i => exact (underlines_succ_iff.mp h).2.2.1

include hs in
theorem ScanState.Tells.underlines_iff (hvisible : Visible lines i)
    (hhashes : ∀ level, ¬HashShape (charsAt lines i) level)
    (hshape : ∃ level, UnderlineShape (charsAt lines i) level) : Underlines lines i ↔ s.text := by
  rw [hs.text]
  constructor
  · intro hused
    cases i with
    | zero => exact hused.elim
    | succ i => exact ⟨i, rfl, (underlines_succ_iff.mp hused).2.2.2⟩
  · rintro ⟨j, rfl, hj⟩
    exact underlines_succ_iff.mpr ⟨hvisible, hhashes, hshape, hj⟩

include hchars hs in
theorem ScanState.Tells.step_outside (hfence : s.fence = none) (hvisible : Visible lines i)
    {kind : LineKind} (hfits : LineKind.Fits (charsAt lines i) kind) :
    (s.step i kind).1.Tells lines (i + 1) ∧ ∀ heading, (s.step i kind).2 = some heading ↔
      Makes lines i heading := by
  cases hfits with
  | fence hshape => exact absurd hshape (hvisible.notFence _ _)
  | hashes hshape =>
    simp only [ScanState.step, hfence, Option.isSome_none, Bool.false_eq_true, if_false]
    refine ⟨tells_of_visible hvisible ?_, fun heading => ?_⟩
    · simpa using fun h : Underlinable lines i => h.notHashes _ hshape
    · rw [makes_iff_of_hashes hchars hvisible hshape, Option.some.injEq, eq_comm]
  | underline hshape =>
    simp only [ScanState.step, hfence, Option.isSome_none, Bool.false_eq_true, if_false]
    have hhashes : ∀ level, ¬HashShape (charsAt lines i) level := by
      intro level hhashes
      cases LineKind.Fits.unique (hchars i) (.hashes hhashes) (.underline hshape)
    have htext := hs.underlines_iff hvisible hhashes ⟨_, hshape⟩
    split
    · rename_i habove
      have hused := htext.mpr habove
      refine ⟨tells_of_visible hvisible ?_, fun heading => ?_⟩
      · simpa using fun h : Underlinable lines i => h.notUsed hused
      · rw [makes_iff_of_underlines hchars hused hshape, Option.some.injEq, eq_comm]
    · rename_i habove
      have hused : ¬Underlines lines i := fun hused => habove (htext.mp hused)
      refine ⟨tells_of_visible hvisible ?_, fun heading => ?_⟩
      · simpa using (⟨hvisible, hshape.allBlank, hhashes, hused⟩ : Underlinable lines i)
      · simpa using not_makes_of_shapes hhashes hused heading
  | blank hblank =>
    simp only [ScanState.step, hfence, Option.isSome_none, Bool.false_eq_true, if_false]
    have hhashes : ∀ level, ¬HashShape (charsAt lines i) level :=
      fun level h => by simp [h.allBlank] at hblank
    have hused : ¬Underlines lines i := by
      intro hused
      obtain ⟨level, hshape⟩ := exists_shape_of_underlines hused
      simp [hshape.allBlank] at hblank
    refine ⟨tells_of_visible hvisible ?_, fun heading => ?_⟩
    · simpa using fun h : Underlinable lines i => by simp [h.notBlank] at hblank
    · simpa using not_makes_of_shapes hhashes hused heading
  | text hblank _ hhashes hunderline =>
    simp only [ScanState.step, hfence, Option.isSome_none, Bool.false_eq_true, if_false]
    have hused : ¬Underlines lines i := by
      intro hused
      obtain ⟨level, hshape⟩ := exists_shape_of_underlines hused
      exact hunderline level hshape
    refine ⟨tells_of_visible hvisible ?_, fun heading => ?_⟩
    · simpa using (⟨hvisible, hblank, hhashes, hused⟩ : Underlinable lines i)
    · simpa using not_makes_of_shapes hhashes hused heading

include hchars hs in
/-- One line: the state goes on to tell about the lines before, and the heading that is found is the
one that the line makes. -/
theorem ScanState.Tells.step (hcontent : contentLine lines ≤ i) (hi : i < lines.length)
    {kind : LineKind} (hfits : LineKind.Fits (charsAt lines i) kind) :
    (s.step i kind).1.Tells lines (i + 1) ∧ ∀ heading, (s.step i kind).2 = some heading ↔
      Makes lines i heading := by
  by_cases hisFence : ∃ f rest, FenceShape (charsAt lines i) f rest
  · obtain ⟨f, rest, hshape⟩ := hisFence
    obtain rfl := hfits.unique (hchars i) (.fence hshape)
    have hnone : (s.step i (.fence f (Text.allBlank rest))).2 = none := by
      simp only [ScanState.step]
      cases s.fence with
      | none => rfl
      | some opened =>
        dsimp only
        split <;> rfl
    refine ⟨hs.step_fence hchars hcontent hshape, fun heading => ?_⟩
    rw [hnone]
    simpa using not_makes_of_not_visible (fun h => h.notFence f rest hshape) heading
  · have hother : ∀ f rest, ¬FenceShape (charsAt lines i) f rest :=
      fun f rest h => hisFence ⟨f, rest, h⟩
    cases hfence : s.fence with
    | none => exact hs.step_outside hchars hfence ⟨hcontent, hi, hother, hs.closed hfence⟩ hfits
    | some opened =>
      have hsame : s.step i kind = (s, none) := by
        cases hfits with
        | fence hshape => exact absurd hshape (hother _ _)
        | _ => simp only [ScanState.step, hfence, Option.isSome_some, if_true]
      rw [hsame]
      refine ⟨hs.step_inside hfence hother, fun heading => ?_⟩
      simpa using not_makes_of_not_visible (fun h => h.notInside (hs.openBefore hfence)) heading

end Step

theorem fits_of_drop_kindsOf (hchars : ∀ i, '\n' ∉ charsAt lines i) {kind : LineKind}
    {rest : List LineKind} (h : (kindsOf lines).drop i = kind :: rest) :
    i < lines.length ∧ LineKind.Fits (charsAt lines i) kind := by
  have hkind : (kindsOf lines)[i]? = some kind := by
    rw [← List.head?_drop, h]
    rfl
  rw [kindsOf, List.getElem?_map] at hkind
  obtain ⟨line, hline, rfl⟩ := Option.map_eq_some_iff.mp hkind
  have hcharsAt : charsAt lines i = line.toList := by
    rw [charsAt, List.getD_eq_getElem?_getD, hline]
    rfl
  refine ⟨(List.getElem?_eq_some_iff.mp hline).1, ?_⟩
  rw [hcharsAt]
  exact fits_ofChars (hcharsAt ▸ hchars i)

theorem mem_headingsFrom_iff (hchars : ∀ i, '\n' ∉ charsAt lines i) {s : ScanState}
    (hs : s.Tells lines i) (hcontent : contentLine lines ≤ i) {kinds : List LineKind}
    (hkinds : (kindsOf lines).drop i = kinds) (h : Heading) :
    h ∈ headingsFrom s i kinds ↔ ∃ j, i ≤ j ∧ j < lines.length ∧ Makes lines j h := by
  induction kinds generalizing s i with
  | nil =>
    have hlength : lines.length ≤ i := by simpa [kindsOf] using hkinds
    simp only [headingsFrom, List.not_mem_nil, false_iff, not_exists, not_and]
    omega
  | cons kind rest ih =>
    obtain ⟨hi, hfits⟩ := fits_of_drop_kindsOf hchars hkinds
    have hrest : (kindsOf lines).drop (i + 1) = rest := by
      rw [← List.tail_drop, hkinds]
      rfl
    obtain ⟨hnext, hfound⟩ := hs.step hchars hcontent hi hfits
    rw [headingsFrom, List.mem_append, Option.mem_toList, ih hnext (by omega) hrest, hfound]
    constructor
    · rintro (hmakes | ⟨j, hj, hlt, hmakes⟩)
      · exact ⟨i, Nat.le_refl i, hi, hmakes⟩
      · exact ⟨j, by omega, hlt, hmakes⟩
    · rintro ⟨j, hj, hlt, hmakes⟩
      rcases Nat.lt_or_eq_of_le hj with hj | rfl
      · exact .inr ⟨j, hj, hlt, hmakes⟩
      · exact .inl hmakes

theorem ScanState.tells_start : ScanState.start.Tells lines (contentLine lines) := by
  refine ⟨fun _ => ?_, nofun, ?_⟩
  · rintro ⟨j, hlt, hj, -⟩
    have hcontent := (opens_iff.mp hj).1
    omega
  · simp only [ScanState.start, Bool.false_eq_true, false_iff]
    rintro ⟨j, hj, hline⟩
    have hcontent := hline.visible.content
    omega

theorem feed_notMem_charsAt (hlines : ∀ line ∈ lines, '\n' ∉ line.toList) (i : Nat) :
    '\n' ∉ charsAt lines i := by
  rw [charsAt, List.getD_eq_getElem?_getD]
  cases hline : lines[i]? with
  | none => simp
  | some line => exact hlines line (List.mem_of_getElem? hline)

/-- The headings are what visible lines make: a line with hashes itself, an underline the line
above. -/
theorem mem_headings_iff (hlines : ∀ line ∈ lines, '\n' ∉ line.toList) (h : Heading) :
    h ∈ headings lines ↔
      (Visible lines h.line ∧ HashShape (charsAt lines h.line) h.level) ∨
        (Underlines lines (h.line + 1) ∧ UnderlineShape (charsAt lines (h.line + 1)) h.level) := by
  have hchars := feed_notMem_charsAt hlines
  rw [headings_eq]
  change h ∈ headingsFrom .start (contentLine lines) ((kindsOf lines).drop (contentLine lines)) ↔ _
  rw [mem_headingsFrom_iff hchars ScanState.tells_start (Nat.le_refl _) rfl]
  constructor
  · rintro ⟨j, -, -, ⟨rfl, hvisible, hshape⟩ | ⟨rfl, hused, hshape⟩⟩
    · exact .inl ⟨hvisible, hshape⟩
    · exact .inr ⟨hused, hshape⟩
  · rintro (⟨hvisible, hshape⟩ | ⟨hused, hshape⟩)
    · exact ⟨h.line, hvisible.content, hvisible.lt, .inl ⟨rfl, hvisible, hshape⟩⟩
    · have hvisible := (underlines_succ_iff.mp hused).1
      exact ⟨h.line + 1, hvisible.content, hvisible.lt, .inr ⟨rfl, hused, hshape⟩⟩

/-- The headings of a document are the visible lines with hashes and the lines above visible
underlines, each with its level, in the order of the lines and no line twice. -/
theorem headings_are_visible (lines : List String) (hlines : ∀ line ∈ lines, '\n' ∉ line.toList) :
    (headings lines).Pairwise (fun a b => a.line < b.line) ∧
      ∀ h, h ∈ headings lines ↔
        (Visible lines h.line ∧ HashShape (charsAt lines h.line) h.level) ∨
          (Underlines lines (h.line + 1) ∧ UnderlineShape (charsAt lines (h.line + 1)) h.level) :=
  ⟨(headings_spec lines).1, mem_headings_iff hlines⟩

/-- A fence in the metadata opens nothing, a block is closed by its own mark only, and a rule that
underlines nothing is text. -/
theorem headings_are_visible_mixed :
    let lines :=
      ["---", "~~~", "---", "# A", "```py", "# hidden", "~~~", "``` ", "B", "===", "===", "---"]
    (∀ line ∈ lines, '\n' ∉ line.toList) ∧ headings lines = [⟨3, 1⟩, ⟨8, 1⟩, ⟨10, 2⟩] ∧
      ¬Visible lines 5 ∧ Underlines lines 11 := by
  intro lines
  have hlines : ∀ line ∈ lines, '\n' ∉ line.toList := by decide +kernel
  have hheadings : headings lines = [⟨3, 1⟩, ⟨8, 1⟩, ⟨10, 2⟩] := by decide +kernel
  have hmem := (headings_are_visible lines hlines).2
  rw [hheadings] at hmem
  refine ⟨hlines, hheadings, fun hvisible => ?_, ?_⟩
  · have hshape : HashShape (charsAt lines 5) 1 :=
      ⟨by decide, by decide, ' ', "hidden".toList, by decide +kernel, by decide, by decide +kernel⟩
    exact absurd ((hmem ⟨5, 1⟩).mpr (.inl ⟨hvisible, hshape⟩)) (by decide)
  · rcases (hmem ⟨10, 2⟩).mp (by decide) with ⟨-, hshape⟩ | ⟨hused, -⟩
    · exact absurd hshape.head? (by decide +kernel)
    · exact hused

end SourceOutline.Markdown
