import SourceOutline.Query.Trial

/-! What it is to match, without a walk: a node passes the test, its children match among its own
children in order and with gaps, one of several options matches, a node stands in its field. The
trials of a pattern at a node that are completed tag just what the pattern tags there. -/
namespace SourceOutline

def Takes (P : Located → List Tagged → Prop) (Q : List Located → List Tagged → Prop)
    (rest : List Located) (out : List Tagged) : Prop :=
  ∃ m after, (m :: after) <:+ rest ∧ ∃ ts us, P m ts ∧ Q after us ∧ out = ts ++ us

mutual

/-- At a node the pattern tags the given nodes, in its own order; `outer` are the tags of choices
around it. -/
def Pattern.Tags : Pattern → List String → Located → List Tagged → Prop
  | .node test children tags, outer, n, out =>
    n.passes test ∧ ∃ ts, Pattern.TagsAmong children n.children ts ∧
      out = n.tag (tags ++ outer) ++ ts
  | .choice options tags, outer, n, out => Pattern.TagsByAny options (tags ++ outer) n out
  | .field name p, outer, n, out => n.tree.info.field = some name ∧ p.Tags outer n out

def Pattern.TagsByAny : List Pattern → List String → Located → List Tagged → Prop
  | [], _, _, _ => False
  | p :: ps, outer, n, out => p.Tags outer n out ∨ Pattern.TagsByAny ps outer n out

def Pattern.TagsAmong : List Pattern → List Located → List Tagged → Prop
  | [], _, out => out = []
  | p :: ps, rest, out => Takes (p.Tags []) (Pattern.TagsAmong ps) rest out

end

def Pattern.Matches (p : Pattern) (n : Located) : Prop := ∃ ts, p.Tags [] n ts

section Takes

variable {P : Located → List Tagged → Prop} {Q : List Located → List Tagged → Prop}
  {rest : List Located}
  {out : List Tagged}

theorem Takes.mono {more : List Located} (hmore : rest <:+ more) :
    Takes P Q rest out → Takes P Q more out := by
  rintro ⟨m, after, hafter, h⟩
  exact ⟨m, after, hafter.trans hmore, h⟩

theorem takes_or {P' : Located → List Tagged → Prop} :
    Takes (fun m ts => P m ts ∨ P' m ts) Q rest out ↔ Takes P Q rest out ∨ Takes P' Q rest out := by
  simp only [Takes, or_and_right, exists_or, and_or_left]

theorem Pattern.TagsAmong.mono {ps : List Pattern} {more : List Located} (hmore : rest <:+ more)
    (h : Pattern.TagsAmong ps rest out) : Pattern.TagsAmong ps more out := by
  cases ps with
  | nil => exact h
  | cons p ps =>
    simp only [Pattern.TagsAmong] at h ⊢
    exact h.mono hmore

end Takes

theorem mem_pickEach {α : Type} {passes : α → Bool} {a : α} {after l : List α} :
    (a, after) ∈ pickEach passes l ↔ (a :: after) <:+ l ∧ passes a := by
  induction l with
  | nil => simp [pickEach]
  | cons b l ih =>
    rw [List.suffix_cons_iff, List.cons.injEq]
    cases hb : passes b with
    | true =>
      simp only [pickEach, hb, if_true, List.mem_cons, ih, Prod.mk.injEq]
      constructor
      · rintro (⟨rfl, rfl⟩ | ⟨hsuffix, ha⟩)
        · exact ⟨.inl ⟨rfl, rfl⟩, hb⟩
        · exact ⟨.inr hsuffix, ha⟩
      · rintro ⟨heq | hsuffix, ha⟩
        · exact .inl heq
        · exact .inr ⟨hsuffix, ha⟩
    | false =>
      simp only [pickEach, hb, Bool.false_eq_true, if_false, ih]
      constructor
      · rintro ⟨hsuffix, ha⟩
        exact ⟨.inr hsuffix, ha⟩
      · rintro ⟨⟨rfl, -⟩ | hsuffix, ha⟩
        · simp [hb] at ha
        · exact ⟨hsuffix, ha⟩

theorem suffix_of_pickEach {α : Type} {passes : α → Bool} {a : α} {after l : List α}
    (h : (a, after) ∈ pickEach passes l) :
    ∃ first rest, (first, rest) ∈ (pickEach passes l).take 1 ∧ after <:+ rest := by
  induction l with
  | nil => simp [pickEach] at h
  | cons b l ih =>
    cases hb : passes b with
    | true =>
      refine ⟨b, l, by simp [pickEach, hb], ?_⟩
      rcases List.suffix_cons_iff.mp (mem_pickEach.mp h).1 with heq | hsuffix
      · cases heq
        exact List.suffix_rfl
      · exact (List.suffix_cons a after).trans hsuffix
    | false =>
      simp only [pickEach, hb, Bool.false_eq_true, if_false] at h ⊢
      exact ih h

def Completes (trials : List Trial) (out : List Tagged) : Prop :=
  ∃ t ∈ trials, t.till = none ∧ t.tagged = out

namespace Completes

variable {out : List Tagged}

theorem of_append {ts us : List Trial} :
    Completes (ts ++ us) out ↔ Completes ts out ∨ Completes us out := by
  simp only [Completes, List.mem_append, or_and_right, exists_or]

theorem of_flatMap {α : Type} {f : α → List Trial} {l : List α} :
    Completes (l.flatMap f) out ↔ ∃ a ∈ l, Completes (f a) out := by
  simp only [Completes, List.mem_flatMap]
  constructor
  · rintro ⟨t, ⟨a, ha, ht⟩, hout⟩
    exact ⟨a, ha, t, ht, hout⟩
  · rintro ⟨a, ha, t, ht, hout⟩
    exact ⟨t, ⟨a, ha, ht⟩, hout⟩

theorem of_waiting {tagged : List Tagged} {last till : Nat} {ts : List Trial} :
    Completes (⟨tagged, last, some till⟩ :: ts) out ↔ Completes ts out := by
  simp [Completes]

theorem of_goOn {next : List Tagged → Nat → List Trial} {ts : List Trial} :
    Completes (goOn next ts) out ↔ ∃ t ∈ ts, t.till = none ∧
      Completes (next t.tagged t.last) out := by
  unfold goOn
  rw [of_flatMap]
  refine exists_congr fun t => and_congr_right fun _ => ?_
  cases htill : t.till with
  | none => simp
  | some e => simp [Completes, htill]

end Completes

/-- Going on by `next` tags, after what is tagged already, what `Q` says of the siblings that are
left; and with more siblings left there is no less. -/
structure Continues (next : List Located → List Tagged → Nat → List Trial)
    (Q : List Located → List Tagged → Prop) :
    Prop where
  completes : ∀ rest tagged last out, Completes (next rest tagged last) out ↔ ∃ us, Q rest us ∧
    out = tagged ++ us
  mono : ∀ {rest more us}, rest <:+ more → Q rest us → Q more us

section Continues

variable {next : List Located → List Tagged → Nat → List Trial}
  {Q : List Located → List Tagged → Prop}

/-- A node is taken: its children are tried first, then it goes on among the siblings after it. -/
theorem completes_goOn_trialsOf (h : Continues next Q) {children : List Pattern} {m : Located}
    (hchildren : Continues (Pattern.trialsOf children m) (Pattern.TagsAmong children))
    (after : List Located) (tagged : List Tagged) (last : Nat) (out : List Tagged) :
    Completes (goOn (next after) (Pattern.trialsOf children m m.children tagged last)) out ↔
      ∃ ts us, Pattern.TagsAmong children m.children ts ∧ Q after us ∧
        out = tagged ++ (ts ++ us) := by
  rw [Completes.of_goOn]
  constructor
  · rintro ⟨t, ht, htill, hout⟩
    obtain ⟨ts, hts, htagged⟩ := (hchildren.completes _ _ _ _).mp ⟨t, ht, htill, rfl⟩
    obtain ⟨us, hus, rfl⟩ := (h.completes _ _ _ _).mp hout
    exact ⟨ts, us, hts, hus, by simp [htagged]⟩
  · rintro ⟨ts, us, hts, hus, rfl⟩
    obtain ⟨t, ht, htill, htagged⟩ :=
      (hchildren.completes m.children tagged last _).mpr ⟨ts, hts, rfl⟩
    exact ⟨t, ht, htill, (h.completes _ _ _ _).mpr ⟨us, hus, by simp [htagged]⟩⟩

theorem continues_trialsAmong_node (h : Continues next Q) (test : NodeTest)
    {children : List Pattern}
    (hchildren : ∀ m, Continues (Pattern.trialsOf children m) (Pattern.TagsAmong children))
    (tags outer : List String) (allowed : Located → Bool) (n : Located) :
    Continues ((Pattern.node test children tags).trialsAmong outer allowed next n)
      (Takes (fun m ts => allowed m ∧ (Pattern.node test children tags).Tags outer m ts) Q) := by
  refine ⟨fun rest tagged last out => ?_, Takes.mono⟩
  have hall : (∃ entry ∈ pickEach (fun m => allowed m && m.passes test) rest,
      Completes (goOn (next entry.2)
        (Pattern.trialsOf children entry.1 entry.1.children (tagged ++ entry.1.tag (tags ++ outer))
          entry.1.entered)) out) ↔
      ∃ us, Takes (fun m ts => allowed m ∧ (Pattern.node test children tags).Tags outer m ts) Q rest
        us ∧
        out = tagged ++ us := by
    simp only [Takes, Pattern.Tags]
    constructor
    · rintro ⟨⟨m, after⟩, hentry, hout⟩
      obtain ⟨hsuffix, hm⟩ := mem_pickEach.mp hentry
      obtain ⟨hallowed, hpasses⟩ := Bool.and_eq_true_iff.mp hm
      obtain ⟨ts, us, hts, hus, rfl⟩ :=
        (completes_goOn_trialsOf h (hchildren m) after _ _ _).mp hout
      exact ⟨m.tag (tags ++ outer) ++ ts ++ us,
        ⟨m, after, hsuffix, _, us, ⟨hallowed, hpasses, ts, hts, rfl⟩, hus, rfl⟩,
        by simp⟩
    · rintro ⟨_, ⟨m, after, hsuffix, _, us, ⟨hallowed, hpasses, ts, hts, rfl⟩, hus, rfl⟩, rfl⟩
      exact ⟨(m, after), mem_pickEach.mpr ⟨hsuffix, Bool.and_eq_true_iff.mpr ⟨hallowed, hpasses⟩⟩,
        (completes_goOn_trialsOf h (hchildren m) after _ _ _).mpr ⟨ts, us, hts, hus, by simp⟩⟩
  rw [← hall]
  simp only [Pattern.trialsAmong, Completes.of_waiting, Completes.of_flatMap]
  split
  · rename_i hplain
    constructor
    · rintro ⟨entry, hentry, hout⟩
      exact ⟨entry, List.mem_of_mem_take hentry, hout⟩
    -- A plain pattern tags nothing, and the first node that it can take leaves the most to what
    -- comes after.
    · rintro ⟨⟨m, after⟩, hentry, hout⟩
      obtain ⟨first, after', hfirst, hsuffix⟩ := suffix_of_pickEach hentry
      obtain ⟨ts, us, hts, hus, rfl⟩ :=
        (completes_goOn_trialsOf h (hchildren m) after _ _ _).mp hout
      simp only [Bool.and_eq_true, List.isEmpty_iff] at hplain
      obtain ⟨rfl, htags⟩ := hplain
      simp only [Pattern.TagsAmong] at hts
      refine ⟨(first, after'), hfirst,
        (completes_goOn_trialsOf h (hchildren first) after' _ _ _).mpr ?_⟩
      exact ⟨[], us, by simp [Pattern.TagsAmong],
        h.mono hsuffix hus, by simp [hts, htags, Located.tag]⟩
  · exact Iff.rfl

end Continues

mutual

theorem continues_trialsAmong (p : Pattern) (outer : List String) (allowed : Located → Bool)
    {next : List Located → List Tagged → Nat → List Trial} {Q : List Located → List Tagged → Prop}
    (h : Continues next Q) (n : Located) :
    Continues (p.trialsAmong outer allowed next n)
      (Takes (fun m ts => allowed m ∧ p.Tags outer m ts) Q) := by
  match p with
  | .node test children tags =>
    exact continues_trialsAmong_node h test (fun m => continues_trialsOf children m)
      tags outer allowed n
  | .choice options tags =>
    simp only [Pattern.Tags]
    refine ⟨fun rest tagged last out => ?_, Takes.mono⟩
    simp only [Pattern.trialsAmong]
    exact (continues_trialsAmongAny options (tags ++ outer) allowed h n).completes
      rest tagged last out
  | .field name p =>
    have hfield :=
      continues_trialsAmong p outer (fun m => allowed m && m.tree.info.field == some name) h n
    simp only [Bool.and_eq_true, beq_iff_eq, and_assoc] at hfield
    simp only [Pattern.Tags]
    refine ⟨fun rest tagged last out => ?_, Takes.mono⟩
    simp only [Pattern.trialsAmong]
    exact hfield.completes rest tagged last out

theorem continues_trialsAmongAny (ps : List Pattern) (outer : List String)
    (allowed : Located → Bool) {next : List Located → List Tagged → Nat → List Trial}
    {Q : List Located → List Tagged → Prop} (h : Continues next Q) (n : Located) :
    Continues (Pattern.trialsAmongAny ps outer allowed next n)
      (Takes (fun m ts => allowed m ∧ Pattern.TagsByAny ps outer m ts) Q) := by
  refine ⟨fun rest tagged last out => ?_, Takes.mono⟩
  match ps with
  | [] => simp [Pattern.trialsAmongAny, Pattern.TagsByAny, Completes, Takes]
  | p :: ps =>
    simp only [Pattern.trialsAmongAny, Completes.of_append, Pattern.TagsByAny, and_or_left,
      takes_or, or_and_right, exists_or]
    rw [(continues_trialsAmong p outer allowed h n).completes,
      (continues_trialsAmongAny ps outer allowed h n).completes]

theorem continues_trialsOf (ps : List Pattern) (n : Located) :
    Continues (Pattern.trialsOf ps n) (Pattern.TagsAmong ps) := by
  refine ⟨fun rest tagged last out => ?_, Pattern.TagsAmong.mono⟩
  match ps with
  | [] => simp [Pattern.trialsOf, Pattern.TagsAmong, Completes, eq_comm]
  | p :: ps =>
    have hrest := (continues_trialsAmong p [] (fun _ => true) (continues_trialsOf ps n) n).completes
      rest tagged last out
    simpa only [Pattern.trialsOf, Pattern.TagsAmong, true_and] using hrest

end

def SinglePattern.Tags (s : SinglePattern) (n : Located) (out : List Tagged) : Prop :=
  s.fits n ∧ ∃ ts, Pattern.TagsAmong s.children n.children ts ∧ out = n.tag s.tags ++ ts

theorem SinglePattern.tags_inField (name : String) (s : SinglePattern) (n : Located)
    (out : List Tagged) :
    SinglePattern.Tags { s with fields := name :: s.fields } n out ↔ n.tree.info.field = some name ∧
      s.Tags n out := by
  simp [SinglePattern.Tags, SinglePattern.fits, and_assoc, and_left_comm]

mutual

theorem tags_iff_singles (p : Pattern) (outer : List String) (n : Located) (out : List Tagged) :
    p.Tags outer n out ↔ ∃ s ∈ p.singles outer, s.Tags n out := by
  match p with
  | .node test children tags =>
    simp [Pattern.Tags, Pattern.singles, SinglePattern.Tags, SinglePattern.fits]
  | .choice options tags =>
    simp only [Pattern.Tags, Pattern.singles]
    exact tagsByAny_iff_singles options (tags ++ outer) n out
  | .field name p =>
    simp only [Pattern.Tags, Pattern.singles, tags_iff_singles p outer n out, List.mem_map]
    constructor
    · rintro ⟨hfield, s, hs, htags⟩
      exact ⟨_, ⟨s, hs, rfl⟩, (s.tags_inField name n out).mpr ⟨hfield, htags⟩⟩
    · rintro ⟨_, ⟨s, hs, rfl⟩, htags⟩
      obtain ⟨hfield, htags⟩ := (s.tags_inField name n out).mp htags
      exact ⟨hfield, s, hs, htags⟩

theorem tagsByAny_iff_singles (ps : List Pattern) (outer : List String) (n : Located)
    (out : List Tagged) :
    Pattern.TagsByAny ps outer n out ↔ ∃ s ∈ Pattern.singlesOfAny ps outer, s.Tags n out := by
  match ps with
  | [] => simp [Pattern.TagsByAny, Pattern.singlesOfAny]
  | p :: ps =>
    simp only [Pattern.TagsByAny, Pattern.singlesOfAny, tags_iff_singles p outer n out,
      tagsByAny_iff_singles ps outer n out, List.mem_append, or_and_right, exists_or]

end

theorem SinglePattern.mem_inOrder {s : SinglePattern} {ss : List SinglePattern} :
    s ∈ SinglePattern.inOrder ss ↔ s ∈ ss := by
  cases hopen : s.isOpen <;> simp [SinglePattern.inOrder, hopen]

theorem SinglePattern.completes_trialsFrom (first : Pattern) (others : List Pattern) (n : Located)
    (tagged out : List Tagged) :
    Completes (SinglePattern.trialsFrom first others n tagged) out ↔
      ∃ ts, Pattern.TagsAmong (first :: others) n.children ts ∧ out = tagged ++ ts := by
  have hone : ∀ (s : SinglePattern) m after, Completes (goOn (Pattern.trialsOf others n after)
        (Pattern.trialsOf s.children m m.children (tagged ++ m.tag s.tags) m.entered)) out ↔
      ∃ ts us, Pattern.TagsAmong s.children m.children ts ∧ Pattern.TagsAmong others after us ∧
        out = tagged ++ m.tag s.tags ++ (ts ++ us) := fun s m after =>
    completes_goOn_trialsOf (continues_trialsOf others n) (continues_trialsOf s.children m) after
      _ _ _
  simp only [SinglePattern.trialsFrom, Completes.of_flatMap, Pattern.TagsAmong, Takes,
    tags_iff_singles, hone, List.mem_filter, SinglePattern.mem_inOrder]
  constructor
  · rintro ⟨⟨m, after⟩, hentry, s, ⟨hs, hfits⟩, ts, us, hts, hus, rfl⟩
    exact ⟨m.tag s.tags ++ ts ++ us,
      ⟨m, after, (mem_pickEach.mp hentry).1, _, us, ⟨s, hs, hfits, ts, hts, rfl⟩, hus, rfl⟩,
      by simp⟩
  · rintro ⟨_, ⟨m, after, hsuffix, _, us, ⟨s, hs, hfits, ts, hts, rfl⟩, hus, rfl⟩, rfl⟩
    exact ⟨(m, after), mem_pickEach.mpr ⟨hsuffix, rfl⟩, s, ⟨hs, hfits⟩, ts, us, hts, hus, by simp⟩

theorem SinglePattern.completes_trialsAt {s : SinglePattern} {n : Located} (hfits : s.fits n)
    (out : List Tagged) : Completes (s.trialsAt n) out ↔ s.Tags n out := by
  simp only [SinglePattern.Tags, hfits, true_and]
  unfold SinglePattern.trialsAt
  split
  · rename_i first others _ hchildren
    rw [SinglePattern.completes_trialsFrom, hchildren]
  · exact (continues_trialsOf s.children n).completes n.children (n.tag s.tags) n.entered out

theorem completes_trialsAt (p : Pattern) (n : Located) (out : List Tagged) :
    Completes (p.trialsAt n) out ↔ p.Tags [] n out := by
  unfold Pattern.trialsAt
  rw [Completes.of_flatMap, tags_iff_singles]
  have hmem : ∀ s, s ∈ (SinglePattern.inOrder ((p.singles []).filter (·.fits n))).filter
      (!·.startsAtChild) ++
      (SinglePattern.inOrder ((p.singles []).filter (·.fits n))).filter (·.startsAtChild) ↔
        s ∈ p.singles [] ∧ s.fits n := by
    intro s
    cases hstarts : s.startsAtChild <;> simp [SinglePattern.mem_inOrder, hstarts]
  constructor
  · rintro ⟨s, hs, hout⟩
    obtain ⟨hsingle, hfits⟩ := (hmem s).mp hs
    exact ⟨s, hsingle, (SinglePattern.completes_trialsAt hfits out).mp hout⟩
  · rintro ⟨s, hsingle, htags⟩
    exact ⟨s, (hmem s).mpr ⟨hsingle, htags.1⟩,
      (SinglePattern.completes_trialsAt htags.1 out).mpr htags⟩

end SourceOutline
