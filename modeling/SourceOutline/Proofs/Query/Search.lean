import Mathlib.Data.List.MinMax
import Mathlib.Data.List.Nodup
import SourceOutline.Proofs.Query.Matching
import SourceOutline.Query.Match

/-! What a search finds. Of the ways in which a pattern fits at a node some are left out, because
others tell as much; but where it matches at all one is left, since a fit that tags the most is part
of no other. So a search captures only what patterns tag, and something for every node at which one
of them matches. -/
namespace SourceOutline

def Located.below (n : Located) : List Located := n.tree.preorder n.parent n.depth n.index

mutual

theorem map_index_preorder (t : SyntaxTree) (parent : Option LineRange) (depth index : Nat) :
    (t.preorder parent depth index).map (·.index) = List.range' index t.size := by
  match t with
  | .node i cs =>
    simp only [SyntaxTree.preorder, SyntaxTree.size, List.map_cons,
      map_index_preorderAll cs, Nat.add_comm 1,
      List.range'_succ]

theorem map_index_preorderAll (ts : List SyntaxTree) (parent : Option LineRange)
    (depth index : Nat) :
    (SyntaxTree.preorderAll parent depth index ts).map (·.index) = List.range' index
      (SyntaxTree.sizeAll ts) := by
  match ts with
  | [] => rfl
  | t :: ts =>
    simp only [SyntaxTree.preorderAll, SyntaxTree.sizeAll, List.map_append, map_index_preorder t,
      map_index_preorderAll ts, ← List.range'_append_1]

end

namespace Located

variable {n m : Located}

theorem eq_of_index_eq {a b : Located} (ha : a ∈ n.below) (hb : b ∈ n.below)
    (h : a.index = b.index) : a = b := by
  have hnodup : (n.below.map (·.index)).Nodup := by
    unfold below
    rw [map_index_preorder]
    exact List.nodup_range'
  exact List.inj_on_of_nodup_map hnodup ha hb h

theorem below_eq (n : Located) :
    n.below = n :: SyntaxTree.preorderAll (some n.tree.info.rows) (n.depth + 1) (n.index + 1)
      n.tree.children := by
  obtain ⟨⟨i, cs⟩, index, depth, parent⟩ := n
  simp only [below, SyntaxTree.preorder, SyntaxTree.info, SyntaxTree.children]

theorem below_subset_of_mem_siblings {parent : LineRange} {depth index : Nat} {ts : List SyntaxTree}
    (h : m ∈ siblings parent depth index ts) :
    m.below ⊆ SyntaxTree.preorderAll (some parent) depth index ts := by
  induction ts generalizing index with
  | nil => simp [siblings] at h
  | cons t ts ih =>
    simp only [SyntaxTree.preorderAll]
    rcases List.mem_cons.mp h with rfl | h
    · exact List.subset_append_left _ _
    · exact List.Subset.trans (ih h) (List.subset_append_right _ _)

theorem below_subset_of_mem_children (h : m ∈ n.children) : m.below ⊆ n.below := by
  rw [below_eq n]
  exact List.Subset.trans (below_subset_of_mem_siblings h) (List.subset_cons_self _ _)

theorem parent_of_mem_siblings {parent : LineRange} {depth index : Nat} {ts : List SyntaxTree}
    (h : m ∈ siblings parent depth index ts) : m.parent = some parent := by
  induction ts generalizing index with
  | nil => simp [siblings] at h
  | cons t ts ih =>
    rcases List.mem_cons.mp h with rfl | h
    · rfl
    · exact ih h

theorem parent_of_mem_children (h : m ∈ n.children) : m.parent = some n.tree.info.rows :=
  parent_of_mem_siblings h

end Located

namespace SyntaxTree

mutual

theorem below_subset_preorder (t : SyntaxTree) (parent : Option LineRange) (depth index : Nat) :
    ∀ n ∈ t.preorder parent depth index, n.below ⊆ t.preorder parent depth index := by
  match t with
  | .node i cs =>
    intro n hn
    rw [preorder] at hn
    rcases List.mem_cons.mp hn with rfl | hn
    · exact List.Subset.refl _
    · rw [preorder]
      exact List.Subset.trans (below_subset_preorderAll cs _ _ _ n hn) (List.subset_cons_self _ _)

theorem below_subset_preorderAll (ts : List SyntaxTree) (parent : Option LineRange)
    (depth index : Nat) :
    ∀ n ∈ preorderAll parent depth index ts, n.below ⊆ preorderAll parent depth index ts := by
  match ts with
  | [] => simp [preorderAll]
  | t :: ts =>
    intro n hn
    rw [preorderAll] at hn ⊢
    rcases List.mem_append.mp hn with hn | hn
    · exact List.Subset.trans (below_subset_preorder t _ _ _ n hn) (List.subset_append_left _ _)
    · exact List.Subset.trans (below_subset_preorderAll ts _ _ _ n hn)
        (List.subset_append_right _ _)

end

mutual

theorem parent_of_mem_preorder (t : SyntaxTree) (parent : Option LineRange) (depth index : Nat) :
    ∀ n ∈ t.preorder parent depth index,
      n.parent = parent ∨ ∃ m ∈ t.preorder parent depth index,
        n.parent = some m.tree.info.rows := by
  match t with
  | .node i cs =>
    intro n hn
    rw [preorder] at hn ⊢
    rcases List.mem_cons.mp hn with rfl | hn
    · exact .inl rfl
    · rcases parent_of_mem_preorderAll cs _ _ _ n hn with hroot | ⟨m, hm, hparent⟩
      · exact .inr ⟨_, .head _, hroot⟩
      · exact .inr ⟨m, .tail _ hm, hparent⟩

theorem parent_of_mem_preorderAll (ts : List SyntaxTree) (parent : Option LineRange)
    (depth index : Nat) :
    ∀ n ∈ preorderAll parent depth index ts,
      n.parent = parent ∨ ∃ m ∈ preorderAll parent depth index ts,
        n.parent = some m.tree.info.rows := by
  match ts with
  | [] => simp [preorderAll]
  | t :: ts =>
    intro n hn
    rw [preorderAll] at hn ⊢
    rcases List.mem_append.mp hn with hn | hn
    · refine (parent_of_mem_preorder t _ _ _ n hn).imp_right ?_
      rintro ⟨m, hm, hparent⟩
      exact ⟨m, List.mem_append_left _ hm, hparent⟩
    · refine (parent_of_mem_preorderAll ts _ _ _ n hn).imp_right ?_
      rintro ⟨m, hm, hparent⟩
      exact ⟨m, List.mem_append_right _ hm, hparent⟩

end

end SyntaxTree

def Tagged.IsOf (x : Tagged) (nodes : List Located) : Prop :=
  ∃ m ∈ nodes, x.index = m.index ∧ x.span = m.span

theorem Tagged.IsOf.mono {x : Tagged} {nodes more : List Located} (h : x.IsOf nodes)
    (hmore : nodes ⊆ more) : x.IsOf more := by
  obtain ⟨m, hm, hx⟩ := h
  exact ⟨m, hmore hm, hx⟩

mutual

theorem isOf_of_tags (p : Pattern) {outer : List String} {n : Located} {out : List Tagged}
    (h : p.Tags outer n out) : ∀ x ∈ out, x.IsOf n.below := by
  match p with
  | .node test children tags =>
    simp only [Pattern.Tags] at h
    obtain ⟨-, ts, hts, rfl⟩ := h
    intro x hx
    rcases List.mem_append.mp hx with hx | hx
    · obtain ⟨tag, -, rfl⟩ := List.mem_map.mp hx
      exact ⟨n, by simp [Located.below_eq], rfl, rfl⟩
    · obtain ⟨m, hm, hmarks⟩ := isOf_of_tagsAmong children hts x hx
      exact hmarks.mono (Located.below_subset_of_mem_children hm)
  | .choice options tags =>
    simp only [Pattern.Tags] at h
    exact isOf_of_tagsByAny options h
  | .field name p =>
    simp only [Pattern.Tags] at h
    exact isOf_of_tags p h.2

theorem isOf_of_tagsByAny (ps : List Pattern) {outer : List String} {n : Located}
    {out : List Tagged} (h : Pattern.TagsByAny ps outer n out) : ∀ x ∈ out, x.IsOf n.below := by
  match ps with
  | [] => exact absurd h (by simp [Pattern.TagsByAny])
  | p :: ps =>
    simp only [Pattern.TagsByAny] at h
    exact h.elim (isOf_of_tags p) (isOf_of_tagsByAny ps)

theorem isOf_of_tagsAmong (ps : List Pattern) {rest : List Located} {out : List Tagged}
    (h : Pattern.TagsAmong ps rest out) : ∀ x ∈ out, ∃ m ∈ rest, x.IsOf m.below := by
  match ps with
  | [] =>
    simp only [Pattern.TagsAmong] at h
    simp [h]
  | p :: ps =>
    simp only [Pattern.TagsAmong, Takes] at h
    obtain ⟨m, after, hsuffix, ts, us, hts, hus, rfl⟩ := h
    intro x hx
    rcases List.mem_append.mp hx with hx | hx
    · exact ⟨m, hsuffix.subset (.head _), isOf_of_tags p hts x hx⟩
    · obtain ⟨c, hc, hmarks⟩ := isOf_of_tagsAmong ps hus x hx
      exact ⟨c, hsuffix.subset (.tail _ hc), hmarks⟩

end

def Tagged.key (x : Tagged) : String × Nat := (x.tag, x.index)

theorem sublist_of_includesTagged {as bs : List Tagged} (h : includesTagged as bs) :
    (bs.map Tagged.key).Sublist (as.map Tagged.key) := by
  fun_induction includesTagged as bs with
  | case1 as => simp
  | case2 b bs => simp at h
  | case3 a as b bs heq ih =>
    have hkey : b.key = a.key := by
      simp only [Bool.and_eq_true, beq_iff_eq] at heq
      simp [Tagged.key, heq.1, heq.2]
    rw [List.map_cons, List.map_cons, hkey]
    exact (ih h).cons_cons _
  | case4 a as b bs _ _ ih => exact (ih h).cons _
  | case5 => simp at h

theorem eq_of_map_key_eq {n : Located} {as bs : List Tagged} (has : ∀ x ∈ as, x.IsOf n.below)
    (hbs : ∀ x ∈ bs, x.IsOf n.below) (h : as.map Tagged.key = bs.map Tagged.key) : as = bs := by
  induction as generalizing bs with
  | nil => simpa [eq_comm] using h
  | cons a as ih =>
    cases bs with
    | nil => simp at h
    | cons b bs =>
      simp only [List.map_cons, List.cons.injEq] at h
      obtain ⟨hkey, hrest⟩ := h
      obtain ⟨m, hm, hindex, hspan⟩ := has a (.head _)
      obtain ⟨m', hm', hindex', hspan'⟩ := hbs b (.head _)
      obtain ⟨htag, hab⟩ := Prod.mk.inj hkey
      have hsame : m = m' := Located.eq_of_index_eq hm hm' (by rw [← hindex, ← hindex', hab])
      have heq : a = b := by
        cases a
        cases b
        simp_all
      rw [heq, ih (fun x hx => has x (.tail _ hx)) (fun x hx => hbs x (.tail _ hx)) hrest]

namespace Fit

theorem dropRepeats_subset (fits kept : List Fit) :
    kept ⊆ fits.foldl (fun kept f => if kept.any f.repeats then kept else kept ++ [f]) kept ∧
      fits.foldl (fun kept f => if kept.any f.repeats then kept else kept ++ [f])
        kept ⊆ kept ++ fits := by
  induction fits generalizing kept with
  | nil => simp
  | cons f fits ih =>
    rw [List.foldl_cons]
    split
    · refine ⟨(ih kept).1, List.Subset.trans (ih kept).2 ?_⟩
      exact ((List.sublist_cons_self f fits).append_left kept).subset
    · obtain ⟨hkept, hall⟩ := ih (kept ++ [f])
      rw [List.append_assoc] at hall
      exact ⟨List.Subset.trans (List.subset_append_left _ _) hkept, hall⟩

theorem dropRepeats_ne_nil {fits : List Fit} (h : fits ≠ []) : dropRepeats fits ≠ [] := by
  cases fits with
  | nil => exact absurd rfl h
  | cons f fits =>
    have hfirst : f ∈ dropRepeats (f :: fits) := (dropRepeats_subset fits [f]).1 (.head _)
    exact List.ne_nil_of_mem hfirst

theorem mem_of_mem_distinct {f : Fit} {fits : List Fit} (h : f ∈ distinct fits) : f ∈ fits := by
  have hkept := (dropRepeats_subset _ []).2 h
  rw [List.nil_append] at hkept
  exact List.mem_of_mem_filter hkept

theorem not_isPartOf {f g : Fit}
    (hkeys : f.tagged.map Tagged.key = g.tagged.map Tagged.key → f.tagged = g.tagged)
    (hlength : g.tagged.length ≤ f.tagged.length) : f.isPartOf g = false := by
  by_contra hpart
  simp only [Bool.not_eq_false, isPartOf, Bool.and_eq_true, bne_iff_ne] at hpart
  obtain ⟨⟨⟨hother, -⟩, -⟩, hincludes⟩ := hpart
  have hsublist := sublist_of_includesTagged hincludes
  exact hother (hkeys (hsublist.eq_of_length_le (by simpa using hlength)))

/-- Where keys tell tagged nodes apart, some of the fits are left: one that tags the most nodes is
part of no other. -/
theorem distinct_ne_nil {fits : List Fit} (hne : fits ≠ [])
    (hkeys : ∀ f ∈ fits, ∀ g ∈ fits, f.tagged.map Tagged.key = g.tagged.map Tagged.key →
      f.tagged = g.tagged) :
    distinct fits ≠ [] := by
  cases hmost : fits.argmax (·.tagged.length) with
  | none => exact absurd (List.argmax_eq_none.mp hmost) hne
  | some f =>
    have hf : f ∈ fits := List.argmax_mem hmost
    have hwhole : ∀ g ∈ fits, f.isPartOf g = false := by
      intro g hg
      have hlength : g.tagged.length ≤ f.tagged.length :=
        List.le_of_mem_argmax (f := fun x => x.tagged.length) hg hmost
      exact not_isPartOf (hkeys f hf g hg) hlength
    apply dropRepeats_ne_nil
    apply List.ne_nil_of_mem (a := f)
    simpa [hf] using hwhole

theorem exists_mem_foldl_repeats {f : Fit} {fits : List Fit} (hf : f ∈ fits) (kept : List Fit) :
    ∃ g ∈ fits.foldl (fun kept f => if kept.any f.repeats then kept else kept ++ [f]) kept,
      g.tagged = f.tagged := by
  induction fits generalizing kept with
  | nil => cases hf
  | cons e fits ih =>
    rw [List.foldl_cons]
    rcases List.mem_cons.mp hf with rfl | hf
    · split
      · rename_i hrepeats
        obtain ⟨g, hg, hsame⟩ := List.any_eq_true.mp hrepeats
        simp only [repeats, Bool.and_eq_true, beq_iff_eq] at hsame
        exact ⟨g, (dropRepeats_subset fits kept).1 hg, hsame.1.symm⟩
      · exact ⟨f, (dropRepeats_subset fits (kept ++ [f])).1 (by simp), rfl⟩
    · exact ih hf _

theorem exists_mem_dropRepeats {f : Fit} {fits : List Fit} (hf : f ∈ fits) :
    ∃ g ∈ dropRepeats fits, g.tagged = f.tagged :=
  exists_mem_foldl_repeats hf []

end Fit

variable {p : Pattern} {n : Located} {nodes : List Located}

theorem mem_fits {out : List Tagged} :
    (∃ f ∈ p.fits nodes n, f.tagged = out) ↔ p.Tags [] n out := by
  rw [← completes_trialsAt]
  simp [Pattern.fits, Completes, Trial.settle, and_assoc]

theorem tags_of_mem_distinct {f : Fit} (h : f ∈ Fit.distinct (p.fits nodes n)) :
    p.Tags [] n f.tagged :=
  mem_fits.mp ⟨f, Fit.mem_of_mem_distinct h, rfl⟩

theorem exists_mem_distinct (h : p.Matches n) (nodes : List Located) :
    ∃ f, f ∈ Fit.distinct (p.fits nodes n) := by
  obtain ⟨out, hout⟩ := h
  obtain ⟨f, hf, -⟩ : ∃ f ∈ p.fits nodes n, f.tagged = out := mem_fits.mpr hout
  have hwithin : ∀ g ∈ p.fits nodes n, ∀ x ∈ g.tagged, x.IsOf n.below := fun g hg =>
    isOf_of_tags p (mem_fits.mp ⟨g, hg, rfl⟩)
  apply List.exists_mem_of_ne_nil
  exact Fit.distinct_ne_nil (List.ne_nil_of_mem hf) fun f hf g hg =>
    eq_of_map_key_eq (hwithin f hf) (hwithin g hg)

theorem exists_mem_distinct_of_tags {out : List Tagged} (h : p.Tags [] n out)
    (hlength : ∀ ts, p.Tags [] n ts → ts.length = out.length) (nodes : List Located) :
    ∃ f ∈ Fit.distinct (p.fits nodes n), f.tagged = out := by
  obtain ⟨f, hf, rfl⟩ : ∃ f ∈ p.fits nodes n, f.tagged = out := mem_fits.mpr h
  have htags : ∀ g ∈ p.fits nodes n, p.Tags [] n g.tagged := fun g hg => mem_fits.mp ⟨g, hg, rfl⟩
  have hwhole : ∀ g ∈ p.fits nodes n, f.isPartOf g = false := fun g hg =>
    Fit.not_isPartOf (eq_of_map_key_eq (isOf_of_tags p (htags f hf)) (isOf_of_tags p (htags g hg)))
      (hlength _ (htags g hg)).le
  exact Fit.exists_mem_dropRepeats (List.mem_filter.mpr ⟨hf, by simpa using hwhole⟩)

theorem mem_fitsAt {i : Nat} {q : List Pattern} {r : RankedFit} (h : r ∈ fitsAt nodes n i q) :
    ∃ p ∈ q, r.fit ∈ Fit.distinct (p.fits nodes n) := by
  induction q generalizing i with
  | nil => simp [fitsAt] at h
  | cons p q ih =>
    rcases List.mem_append.mp h with h | h
    · obtain ⟨f, hf, rfl⟩ := List.mem_map.mp h
      exact ⟨p, .head _, hf⟩
    · obtain ⟨p', hp', hfit⟩ := ih h
      exact ⟨p', .tail _ hp', hfit⟩

theorem exists_mem_fitsAt {i : Nat} {q : List Pattern} {f : Fit} (hp : p ∈ q)
    (h : f ∈ Fit.distinct (p.fits nodes n)) : ∃ r ∈ fitsAt nodes n i q, r.fit = f := by
  induction q generalizing i with
  | nil => cases hp
  | cons p' q ih =>
    unfold fitsAt
    rcases List.mem_cons.mp hp with rfl | hp
    · exact ⟨⟨f, n.depth, i⟩, List.mem_append_left _ (List.mem_map.mpr ⟨f, h, rfl⟩), rfl⟩
    · obtain ⟨r, hr, hfit⟩ := ih hp
      exact ⟨r, List.mem_append_right _ hr, hfit⟩

theorem mem_groupByTag {tagged : List Tagged} {tag : String} {span : NodeSpan} :
    (∃ spans, (tag, spans) ∈ groupByTag tagged ∧ span ∈ spans) ↔ ∃ x ∈ tagged, x.tag = tag ∧
      x.span = span := by
  simp only [groupByTag, List.mem_map, List.mem_eraseDups, Prod.mk.injEq]
  constructor
  · rintro ⟨spans, ⟨_, -, rfl, rfl⟩, hspan⟩
    obtain ⟨x, hx, rfl⟩ := List.mem_map.mp hspan
    obtain ⟨hx, htag⟩ := List.mem_filter.mp hx
    exact ⟨x, hx, by simpa using htag, rfl⟩
  · rintro ⟨x, hx, rfl, rfl⟩
    exact ⟨_, ⟨x.tag, ⟨x, hx, rfl⟩, rfl, rfl⟩, List.mem_map.mpr ⟨x, by simp [hx], rfl⟩⟩

theorem mem_capturesOf_search {q : Query} {t : SyntaxTree} {c : Capture} :
    c ∈ capturesOf (q.search t) ↔ ∃ n ∈ t.nodes, ∃ p ∈ q, ∃ f ∈ Fit.distinct (p.fits t.nodes n),
      ∃ x ∈ f.tagged, Capture.ofNode x.tag x.span = c := by
  have hgroups : ∀ tagged, (∃ g ∈ groupByTag tagged, ∃ span ∈ g.2, Capture.ofNode g.1 span = c) ↔
      ∃ x ∈ tagged, Capture.ofNode x.tag x.span = c := by
    intro tagged
    constructor
    · rintro ⟨⟨tag, spans⟩, hgroup, span, hspan, rfl⟩
      obtain ⟨x, hx, rfl, rfl⟩ := mem_groupByTag.mp ⟨spans, hgroup, hspan⟩
      exact ⟨x, hx, rfl⟩
    · rintro ⟨x, hx, rfl⟩
      obtain ⟨spans, hgroup, hspan⟩ := mem_groupByTag.mpr ⟨x, hx, rfl, rfl⟩
      exact ⟨_, hgroup, _, hspan, rfl⟩
  simp only [capturesOf, Query.search, List.mem_flatMap, List.mem_map, List.mem_mergeSort]
  constructor
  · rintro ⟨_, ⟨r, ⟨n, hn, hr⟩, rfl⟩, hc⟩
    obtain ⟨p, hp, hfit⟩ := mem_fitsAt hr
    exact ⟨n, hn, p, hp, r.fit, hfit, (hgroups _).mp hc⟩
  · rintro ⟨n, hn, p, hp, f, hf, hc⟩
    obtain ⟨r, hr, rfl⟩ := exists_mem_fitsAt hp hf
    exact ⟨_, ⟨r, ⟨n, hn, hr⟩, rfl⟩, (hgroups _).mpr hc⟩

theorem rows_of_mem_captures {q : Query} {t : SyntaxTree} {c : Capture}
    (h : c ∈ capturesOf (q.search t)) : ∃ n ∈ t.nodes, n.tree.info.rows = c.span := by
  obtain ⟨root, hroot, p, -, f, hf, x, hx, rfl⟩ := mem_capturesOf_search.mp h
  obtain ⟨m, hm, -, hspan⟩ := isOf_of_tags p (tags_of_mem_distinct hf) x hx
  have hnode : m ∈ t.nodes := SyntaxTree.below_subset_preorder t none 0 0 root hroot hm
  simp only [Capture.span, Capture.ofNode, hspan, Located.span]
  split
  · rcases SyntaxTree.parent_of_mem_preorder t none 0 0 m hnode with hnone | ⟨n, hn, hparent⟩
    · exact ⟨m, hnode, by rw [hnone]; rfl⟩
    · exact ⟨n, hn, by rw [hparent]; rfl⟩
  · exact ⟨m, hnode, rfl⟩

end SourceOutline
