import SourceOutline.Language.Table
import SourceOutline.Proofs.Outline.Spans
import SourceOutline.Proofs.Query.Search
import SourceOutline.Query.Compile

/-! Languages whose queries tag declarations: a node as the block of a definition and one of its
children as the name. The block and the name stand for the same lines, and a name is listed whatever
its line looks like; so an outline in such a language lists the lines of every node at which a
pattern matches, and no other. -/
namespace SourceOutline

def isNameTag (tag : String) : Bool :=
  Text.contains tag "definition" && Text.contains tag "name.definition"

def isBlockTag (tag : String) : Bool :=
  Text.contains tag "definition" && !Text.contains tag "name.definition"

/-- A pattern for a name: one tag and no children. -/
def SinglePattern.isName (s : SinglePattern) : Bool :=
  s.children.isEmpty && match s.tags with
    | [tag] => isNameTag tag
    | _ => false

def SinglePattern.isPlain (s : SinglePattern) : Bool := s.children.isEmpty && s.tags.isEmpty

/-- A pattern for a declaration: a block with a name directly in it, and perhaps other children that
are not tagged. -/
def Pattern.declares : Pattern → Bool
  | .node _ (child :: others) [tag] =>
    isBlockTag tag && (child.singles []).all (·.isName) && others.all fun p =>
      (p.singles []).all (·.isPlain)
  | _ => false

theorem tags_of_isName {s : SinglePattern} (h : s.isName) {m : Located} {out : List Tagged}
    (hout : s.Tags m out) : ∃ tag, isNameTag tag ∧ out = [⟨tag, m.index, m.span⟩] := by
  obtain ⟨fields, test, children, tags⟩ := s
  simp only [SinglePattern.isName, Bool.and_eq_true, List.isEmpty_iff] at h
  obtain ⟨rfl, h⟩ := h
  split at h
  · rename_i tag
    obtain ⟨-, ts, hts, rfl⟩ := hout
    simp only [Pattern.TagsAmong] at hts
    exact ⟨tag, h, by simp [hts, Located.tag, maxTags]⟩
  · cases h

theorem tagsAmong_of_isPlain {ps : List Pattern}
    (h : ps.all fun p => (p.singles []).all (·.isPlain)) {rest : List Located} {out : List Tagged}
    (hout : Pattern.TagsAmong ps rest out) : out = [] := by
  induction ps generalizing rest out with
  | nil => simpa [Pattern.TagsAmong] using hout
  | cons p ps ih =>
    obtain ⟨hp, hps⟩ := Bool.and_eq_true_iff.mp h
    simp only [Pattern.TagsAmong, Takes] at hout
    obtain ⟨m, after, -, ts, us, hts, hus, rfl⟩ := hout
    obtain ⟨s, hs, -, cs, hcs, rfl⟩ := (tags_iff_singles p [] m ts).mp hts
    have hplain := List.all_eq_true.mp hp s hs
    simp only [SinglePattern.isPlain, Bool.and_eq_true, List.isEmpty_iff] at hplain
    rw [hplain.1, Pattern.TagsAmong] at hcs
    simp [hplain.2, hcs, ih hps hus, Located.tag]

theorem tags_of_declares {p : Pattern} (h : p.declares) {n : Located} {out : List Tagged}
    (hout : p.Tags [] n out) :
    ∃ block name m, isBlockTag block ∧ isNameTag name ∧ m ∈ n.children ∧
      out = [⟨block, n.index, n.span⟩, ⟨name, m.index, m.span⟩] := by
  unfold Pattern.declares at h
  split at h
  · rename_i test child others block
    simp only [Bool.and_eq_true] at h
    obtain ⟨⟨hblock, hchild⟩, hothers⟩ := h
    simp only [Pattern.Tags, Pattern.TagsAmong, Takes] at hout
    obtain ⟨-, _, ⟨m, after, hsuffix, ts, us, hts, hus, rfl⟩, rfl⟩ := hout
    obtain ⟨s, hs, hts⟩ := (tags_iff_singles child [] m ts).mp hts
    obtain ⟨name, hname, rfl⟩ := tags_of_isName (List.all_eq_true.mp hchild s hs) hts
    refine ⟨block, name, m, hblock, hname, hsuffix.subset (.head _), ?_⟩
    simp [tagsAmong_of_isPlain hothers hus, Located.tag, maxTags]
  · cases h

theorem Capture.span_ofNode_block {tag : String} (h : isBlockTag tag) (n : Located) :
    (Capture.ofNode tag n.span).span = n.tree.info.rows := by
  simp only [isBlockTag, Bool.and_eq_true, Bool.not_eq_true'] at h
  simp [span, ofNode, isName, h, Located.span]

theorem Capture.span_ofNode_name {tag : String} (h : isNameTag tag) {n m : Located}
    (hm : m ∈ n.children) : (Capture.ofNode tag m.span).span = n.tree.info.rows := by
  simp only [isNameTag, Bool.and_eq_true] at h
  simp [span, ofNode, isName, h, Located.span, Located.parent_of_mem_children hm]

section Captures

variable {q : Query} (hq : ∀ p ∈ q, p.declares) {t : SyntaxTree}

include hq

theorem span_of_mem_captures {c : Capture} (h : c ∈ capturesOf (q.search t)) :
    ∃ n ∈ t.nodes, (∃ p ∈ q, p.Matches n) ∧ n.tree.info.rows = c.span := by
  obtain ⟨n, hn, p, hp, f, hf, x, hx, rfl⟩ := mem_capturesOf_search.mp h
  have htags := tags_of_mem_distinct hf
  obtain ⟨block, name, m, hblock, hname, hm, hout⟩ := tags_of_declares (hq p hp) htags
  refine ⟨n, hn, ⟨p, hp, f.tagged, htags⟩, ?_⟩
  rw [hout] at hx
  rcases List.mem_cons.mp hx with rfl | hx
  · exact (Capture.span_ofNode_block hblock n).symm
  · cases List.mem_singleton.mp hx
    exact (Capture.span_ofNode_name hname hm).symm

theorem exists_captures {n : Located} (hn : n ∈ t.nodes) {p : Pattern} (hp : p ∈ q)
    (h : p.Matches n) (named : Bool) :
    ∃ c ∈ capturesOf (q.search t), c.isDefinition ∧ c.isName = named ∧
      c.span = n.tree.info.rows := by
  obtain ⟨f, hf⟩ := exists_mem_distinct h t.nodes
  obtain ⟨block, name, m, hblock, hname, hm, hout⟩ :=
    tags_of_declares (hq p hp) (tags_of_mem_distinct hf)
  have hblockSpan := Capture.span_ofNode_block hblock n
  have hnameSpan := Capture.span_ofNode_name hname hm
  simp only [isBlockTag, isNameTag, Bool.and_eq_true, Bool.not_eq_true'] at hblock hname
  cases named with
  | false =>
    refine ⟨.ofNode block n.span, ?_, hblock.1, hblock.2, hblockSpan⟩
    exact mem_capturesOf_search.mpr ⟨n, hn, p, hp, f, hf, ⟨block, n.index, n.span⟩, by simp [hout],
      rfl⟩
  | true =>
    refine ⟨.ofNode name m.span, ?_, hname.1, hname.2, hnameSpan⟩
    exact mem_capturesOf_search.mpr ⟨n, hn, p, hp, f, hf, ⟨name, m.index, m.span⟩, by simp [hout],
      rfl⟩

end Captures

theorem synthesize_of_spans {spans : LineRange → Prop} (hfirst : ∀ r, spans r → 0 ≤ r.first)
    {captures : List Capture} (hsound : ∀ c ∈ captures, spans c.span) (lines : List String)
    (test : String → Bool) (hcomplete : ∀ r, spans r →
      ∃ c ∈ captures, c.isDefinition ∧ c.span = r ∧
        (c.isName ∨ test (titleAt lines r.first) = false))
    {minLines : Int} (hmin : 1 ≤ minLines) :
    ∃ ds, synthesize captures lines minLines (.total test) = .ok ds ∧ (listedRanges ds).Nodup ∧
      ∀ r, r ∈ listedRanges ds ↔ spans r ∧ minLines ≤ r.size := by
  obtain ⟨ds, hds, hnodup, hlisted⟩ := synthesize_listedRanges captures lines hmin test
    (fun c hc => hfirst _ (hsound c hc))
  refine ⟨ds, hds, hnodup, fun r => ?_⟩
  rw [hlisted]
  constructor
  · rintro ⟨c, hc, -, rfl, hsize, -⟩
    exact ⟨hsound c hc, hsize⟩
  · rintro ⟨hr, hsize⟩
    obtain ⟨c, hc, hdefinition, hspan, hkept⟩ := hcomplete r hr
    exact ⟨c, hc, hdefinition, hspan, hsize, hkept⟩

namespace Query

theorem attempt_of_read {v : Vocabulary} {cs : List Char} {q : Query} (h : read v cs = .ok q)
    (earlier : Nat) : attempt v earlier cs = .ok q := by
  unfold attempt
  rw [h]

theorem compile_of_read {v : Vocabulary} {text : String} {q : Query}
    (h : read v text.toList = .ok q) (earlier : Nat) : compile v text earlier = .ok q := by
  unfold compile
  rw [attempt_of_read h]
  rfl

def readsAs (v : Vocabulary) (test : Query → Bool) (cs : List Char) : Bool :=
  match read v cs with
  | .ok q => test q
  | .error _ => false

theorem exists_of_readsAs {v : Vocabulary} (test : Query → Bool) {text : String} {cs : List Char}
    (htext : text.toList = cs) (h : readsAs v test cs) :
    ∃ q, read v text.toList = .ok q ∧ test q := by
  unfold readsAs at h
  rw [htext]
  split at h
  · rename_i q hq
    exact ⟨q, hq, h⟩
  · cases h

end Query

/-- The languages whose queries hold declarations only. -/
def declarationLanguages : List String :=
  ["python", "rust", "java", "kotlin", "scala", "c_sharp", "swift", "ruby", "php",
    "lua", "bash", "toml"]

-- The characters of a text are taken off its literal; computing them would take the kernel very
-- long.
set_option maxRecDepth 8000 in
theorem reads_declarations {l : Language} (hl : l ∈ Language.table)
    (hname : l.name ∈ declarationLanguages) :
    ∃ q, Query.read (.ofLanguage l.name) l.query.toList = .ok q ∧ q.all Pattern.declares := by
  simp only [Language.table, List.mem_cons, List.not_mem_nil, or_false] at hl
  rcases hl with
    rfl | rfl | rfl | rfl | rfl | rfl | rfl | rfl | rfl | rfl | rfl |
    rfl | rfl | rfl | rfl | rfl | rfl | rfl | rfl | rfl | rfl | rfl
  all_goals
    first
    | exact absurd hname (by decide)
    | exact Query.exists_of_readsAs (List.all · Pattern.declares) String.toList_ofList
        (by decide +kernel)

theorem exists_language {name : String} (hname : name ∈ declarationLanguages) :
    ∃ l ∈ Language.table, Language.named? name = some l ∧ l.name = name := by
  have hnamed : ∀ name ∈ declarationLanguages, (Language.named? name).isSome := by decide +kernel
  obtain ⟨l, hl⟩ := Option.isSome_iff_exists.mp (hnamed name hname)
  exact ⟨l, List.mem_of_find?_eq_some hl, hl, by simpa using List.find?_some hl⟩

/-- In a language of declarations an outline lists, once each, the lines of the nodes at which some
pattern of its query matches, as far as they are enough, whatever the test for inline markup says.
Names neither add nor hide any: without their captures, and with no line taken for inline markup,
the same lines are listed. -/
theorem declarations_listed_once (name : String) (hname : name ∈ declarationLanguages) :
    ∃ l q, Language.named? name = some l ∧
      (∀ earlier, Query.compile (.ofLanguage name) l.query earlier = .ok q) ∧
      ∀ t : SyntaxTree, (∀ n ∈ t.nodes, 0 ≤ n.tree.info.rows.first) →
      ∀ (lines : List String) (minLines : Int), 1 ≤ minLines → ∀ test : String → Bool,
        let captures := capturesOf (q.search t)
        let declared := fun r => ∃ n ∈ t.nodes, (∃ p ∈ q, p.Matches n) ∧ n.tree.info.rows = r
        (∃ ds, synthesize captures lines minLines (.total test) = .ok ds ∧ (listedRanges ds).Nodup ∧
          ∀ r, r ∈ listedRanges ds ↔ declared r ∧ minLines ≤ r.size) ∧
        ∃ ds, synthesize (captures.filter (!·.isName)) lines minLines (.total fun _ => false) =
            .ok ds ∧ (listedRanges ds).Nodup ∧
          ∀ r, r ∈ listedRanges ds ↔ declared r ∧ minLines ≤ r.size := by
  obtain ⟨l, hl, hnamed, rfl⟩ := exists_language hname
  obtain ⟨q, hread, hdeclares⟩ := reads_declarations hl hname
  have hq := List.all_eq_true.mp hdeclares
  refine ⟨l, q, hnamed, Query.compile_of_read hread, ?_⟩
  intro t hrows lines minLines hmin test captures declared
  have hfirst : ∀ r, declared r → 0 ≤ r.first := by
    rintro r ⟨n, hn, -, rfl⟩
    exact hrows n hn
  have hspans : ∀ c ∈ captures, declared c.span := fun c hc => span_of_mem_captures hq hc
  constructor
  · refine synthesize_of_spans hfirst hspans lines test ?_ hmin
    rintro r ⟨n, hn, ⟨p, hp, hmatches⟩, rfl⟩
    obtain ⟨c, hc, hdefinition, hnamed, hspan⟩ := exists_captures hq hn hp hmatches true
    exact ⟨c, hc, hdefinition, hspan, .inl hnamed⟩
  · refine synthesize_of_spans hfirst (fun c hc => hspans c (List.mem_of_mem_filter hc)) lines _ ?_
      hmin
    rintro r ⟨n, hn, ⟨p, hp, hmatches⟩, rfl⟩
    obtain ⟨c, hc, hdefinition, hblock, hspan⟩ := exists_captures hq hn hp hmatches false
    exact ⟨c, List.mem_filter.mpr ⟨hc, by simp [hblock]⟩, hdefinition, hspan, .inr rfl⟩

def functionTree : SyntaxTree :=
  .node ⟨"function_definition", none, ⟨0, 3⟩, (0, 40), true, false, false⟩
    [.node ⟨"identifier", some "name", ⟨0, 0⟩, (4, 5), true, false, false⟩ []]

set_option maxRecDepth 8000 in
theorem declarations_listed_once_function :
    "python" ∈ declarationLanguages ∧ (∀ n ∈ functionTree.nodes, 0 ≤ n.tree.info.rows.first) ∧
      ∃ q ds, Query.compile (.ofLanguage "python") DefinitionQuery.python 0 = .ok q ∧
        synthesize (capturesOf (q.search functionTree)) ["def f():"] 2 (.total fun _ => true) =
          .ok ds ∧ ⟨0, 3⟩ ∈ listedRanges ds := by
  have hpython : "python" ∈ declarationLanguages := .head _
  have hrows : ∀ n ∈ functionTree.nodes, 0 ≤ n.tree.info.rows.first := by decide +kernel
  obtain ⟨l, q, hnamed, hcompile, hlisted⟩ := declarations_listed_once "python" hpython
  have hquery : (Language.named? "python").map (·.query) = some DefinitionQuery.python := by
    decide +kernel
  obtain ⟨q', hread, hfound⟩ : ∃ q,
      Query.read (.ofLanguage "python") DefinitionQuery.python.toList = .ok q ∧
      q.any fun p => (p.trialsAt ⟨functionTree, 0, 0, none⟩).any (·.till.isNone) :=
    Query.exists_of_readsAs _ String.toList_ofList (by decide +kernel)
  have hsame : q' = q := by
    rw [hnamed] at hquery
    have htext : l.query = DefinitionQuery.python := Option.some.inj hquery
    have hcompiled := hcompile 0
    rw [htext, Query.compile_of_read hread] at hcompiled
    exact Except.ok.inj hcompiled
  subst hsame
  obtain ⟨p, hp, hcomplete⟩ := List.any_eq_true.mp hfound
  obtain ⟨trial, htrial, htill⟩ := List.any_eq_true.mp hcomplete
  have hmatches : p.Matches ⟨functionTree, 0, 0, none⟩ :=
    ⟨_, (completes_trialsAt p _ _).mp ⟨trial, htrial, by simpa using htill, rfl⟩⟩
  obtain ⟨⟨ds, hds, -, hranges⟩, -⟩ :=
    hlisted functionTree hrows ["def f():"] 2 (by decide) (fun _ => true)
  exact ⟨hpython, hrows, q', ds, Query.compile_of_read hread 0, hds,
    (hranges ⟨0, 3⟩).mpr ⟨⟨_, .head _, ⟨p, hp, hmatches⟩, rfl⟩, by decide⟩⟩

end SourceOutline
