import SourceOutline.Proofs.Language.Declarations

/-! C and C++. The name of a function stands in its declarator, which is itself a child of the
function; and a name stands for the rows of its parent. So next to a whole function its signature is
listed for itself, as soon as it takes enough lines. The other patterns of these languages are those
of declarations, and nothing but whole definitions and signatures is listed. -/
namespace SourceOutline

/-- `m` is the declarator of the function `n`, and `k` in it is a name of the given kind. -/
structure Signs (kind : String) (n m k : Located) : Prop where
  function : n.passes (.kind "function_definition")
  declarator : m ∈ n.children ∧ m.tree.info.field = some "declarator" ∧
    m.passes (.kind "function_declarator")
  name : k ∈ m.children ∧ k.tree.info.field = some "declarator" ∧ k.passes (.kind kind)

/-- The kind of the names that a pattern for functions looks for: the function is a block, and its
declarator is not tagged. -/
def Pattern.signedKind? : Pattern → Option String
  | .node (.kind outer)
    [.field role (.node (.kind inner) [.field innerRole (.node (.kind kind) [] [name])] [])]
    [block] =>
    if outer = "function_definition" ∧ role = "declarator" ∧ inner = "function_declarator" ∧
      innerRole = "declarator" ∧
        isBlockTag block ∧ isNameTag name then some kind else none
  | _ => none

theorem tagsAmong_singleton {p : Pattern} {rest : List Located} {out : List Tagged} :
    Pattern.TagsAmong [p] rest out ↔ ∃ m ∈ rest, p.Tags [] m out := by
  simp only [Pattern.TagsAmong, Takes]
  constructor
  · rintro ⟨m, after, hsuffix, ts, us, hts, rfl, rfl⟩
    exact ⟨m, hsuffix.subset (.head _), by simpa using hts⟩
  · rintro ⟨m, hm, hts⟩
    obtain ⟨before, after, rfl⟩ := List.append_of_mem hm
    exact ⟨m, after, List.suffix_append _ _, out, [], hts, rfl, by simp⟩

theorem tags_iff_signs {p : Pattern} {kind : String} (h : p.signedKind? = some kind) :
    ∃ block name, isBlockTag block ∧ isNameTag name ∧ ∀ n out, p.Tags [] n out ↔
      ∃ m k, Signs kind n m k ∧ out = [⟨block, n.index, n.span⟩, ⟨name, k.index, k.span⟩] := by
  unfold Pattern.signedKind? at h
  split at h
  · rename_i outer role inner innerRole kind' name block
    split at h
    · rename_i hshape
      obtain ⟨rfl, rfl, rfl, rfl, hblock, hname⟩ := hshape
      cases Option.some.inj h
      refine ⟨block, name, hblock, hname, fun n out => ?_⟩
      simp only [Pattern.Tags, tagsAmong_singleton]
      constructor
      · rintro ⟨hn, _, ⟨m, hm, hmfield, hmkind, _, ⟨k, hk, hkfield, hkkind, _, rfl, rfl⟩, rfl⟩, rfl⟩
        exact ⟨m, k,
          ⟨hn, ⟨hm, hmfield, hmkind⟩, hk, hkfield, hkkind⟩, by simp [Located.tag, maxTags]⟩
      · rintro ⟨m, k, ⟨hn, ⟨hm, hmfield, hmkind⟩, hk, hkfield, hkkind⟩, rfl⟩
        refine ⟨hn, _, ⟨m, hm, hmfield, hmkind, _, ⟨k, hk, hkfield, hkkind, _, rfl, rfl⟩, rfl⟩, ?_⟩
        simp [Located.tag, maxTags]
    · cases h
  · cases h

/-- A range that a capture of a whole definition has. -/
def IsWhole (captures : List Capture) (r : LineRange) : Prop :=
  ∃ c ∈ captures, isBlockTag c.name ∧ c.range = r

/-- The rows of the declarator of a function whose name has one of the given kinds. -/
def IsSignature (kinds : List String) (t : SyntaxTree) (r : LineRange) : Prop :=
  ∃ n ∈ t.nodes, ∃ m k, ∃ kind ∈ kinds, Signs kind n m k ∧ m.tree.info.rows = r

section Captures

variable {q : Query} {kinds : List String}
  (hq : ∀ p ∈ q, p.declares ∨ ∃ kind ∈ kinds, p.signedKind? = some kind)
  {t : SyntaxTree}

include hq in
/-- Wherever a pattern matches, it tags the node as a block and one other node as a name: a child,
which stands for the node, or the name in a signature. -/
theorem tags_of_signs {p : Pattern} (hp : p ∈ q) {n : Located} {out : List Tagged}
    (hout : p.Tags [] n out) :
    ∃ block name k, isBlockTag block ∧ isNameTag name ∧
      out = [⟨block, n.index, n.span⟩, ⟨name, k.index, k.span⟩] ∧
      (k ∈ n.children ∨ ∃ m, ∃ kind ∈ kinds, Signs kind n m k) := by
  rcases hq p hp with hdeclares | ⟨kind, hkind, hsigned⟩
  · obtain ⟨block, name, m, hblock, hname, hm, rfl⟩ := tags_of_declares hdeclares hout
    exact ⟨block, name, m, hblock, hname, rfl, .inl hm⟩
  · obtain ⟨block, name, hblock, hname, hiff⟩ := tags_iff_signs hsigned
    obtain ⟨m, k, hsigns, rfl⟩ := (hiff n out).mp hout
    exact ⟨block, name, k, hblock, hname, rfl, .inr ⟨m, kind, hkind, hsigns⟩⟩

include hq in
theorem isWhole_or_isSignature {c : Capture} (h : c ∈ capturesOf (q.search t)) :
    IsWhole (capturesOf (q.search t)) c.span ∨ IsSignature kinds t c.span := by
  obtain ⟨n, hn, p, hp, f, hf, x, hx, rfl⟩ := mem_capturesOf_search.mp h
  obtain ⟨block, name, k, hblock, hname, hout, hk⟩ := tags_of_signs hq hp (tags_of_mem_distinct hf)
  have hwhole : IsWhole (capturesOf (q.search t)) n.tree.info.rows := by
    refine ⟨.ofNode block n.span, ?_, hblock, rfl⟩
    exact mem_capturesOf_search.mpr ⟨n, hn, p, hp, f, hf, ⟨block, n.index, n.span⟩, by simp [hout],
      rfl⟩
  rw [hout] at hx
  rcases List.mem_cons.mp hx with rfl | hx
  · rw [Capture.span_ofNode_block hblock]
    exact .inl hwhole
  · cases List.mem_singleton.mp hx
    rcases hk with hchild | ⟨m, kind, hkind, hsigns⟩
    · rw [Capture.span_ofNode_name hname hchild]
      exact .inl hwhole
    · rw [Capture.span_ofNode_name hname hsigns.name.1]
      exact .inr ⟨n, hn, m, k, kind, hkind, hsigns, rfl⟩

include hq in
theorem matches_of_isWhole {r : LineRange} (h : IsWhole (capturesOf (q.search t)) r) :
    ∃ n ∈ t.nodes, (∃ p ∈ q, p.Matches n) ∧ n.tree.info.rows = r := by
  obtain ⟨c, hc, htag, rfl⟩ := h
  obtain ⟨n, hn, p, hp, f, hf, x, hx, rfl⟩ := mem_capturesOf_search.mp hc
  have htags := tags_of_mem_distinct hf
  obtain ⟨block, name, k, -, hname, hout, -⟩ := tags_of_signs hq hp htags
  refine ⟨n, hn, ⟨p, hp, f.tagged, htags⟩, ?_⟩
  rw [hout] at hx
  rcases List.mem_cons.mp hx with rfl | hx
  · rfl
  · cases List.mem_singleton.mp hx
    simp only [isNameTag, isBlockTag, Capture.ofNode, Bool.and_eq_true, Bool.not_eq_true']
      at hname htag
    exact absurd hname.2 (by simp [htag.2])

theorem exists_capture_of_isSignature (hkinds : ∀ kind ∈ kinds, ∃ p ∈ q, p.signedKind? = some kind)
    {r : LineRange} (h : IsSignature kinds t r) :
    ∃ c ∈ capturesOf (q.search t), c.isDefinition ∧ c.isName ∧ c.span = r := by
  obtain ⟨n, hn, m, k, kind, hkind, hsigns, rfl⟩ := h
  obtain ⟨p, hp, hsigned⟩ := hkinds kind hkind
  obtain ⟨block, name, -, hname, hiff⟩ := tags_iff_signs hsigned
  have hlength : ∀ ts, p.Tags [] n ts → ts.length = 2 := by
    intro ts hts
    obtain ⟨m', k', -, rfl⟩ := (hiff n ts).mp hts
    rfl
  obtain ⟨f, hf, hout⟩ :=
    exists_mem_distinct_of_tags ((hiff n _).mpr ⟨m, k, hsigns, rfl⟩) hlength t.nodes
  have hspan := Capture.span_ofNode_name hname hsigns.name.1
  simp only [isNameTag, Bool.and_eq_true] at hname
  refine ⟨.ofNode name k.span, ?_, hname.1, hname.2, hspan⟩
  exact mem_capturesOf_search.mpr ⟨n, hn, p, hp, f, hf, ⟨name, k.index, k.span⟩, by simp [hout],
    rfl⟩

include hq in
theorem synthesize_signs (hkinds : ∀ kind ∈ kinds, ∃ p ∈ q, p.signedKind? = some kind)
    (hrows : ∀ n ∈ t.nodes, 0 ≤ n.tree.info.rows.first) (lines : List String) {minLines : Int}
    (hmin : 1 ≤ minLines) (test : String → Bool) :
    ∃ ds, synthesize (capturesOf (q.search t)) lines minLines (.total test) = .ok ds ∧
      (∀ r ∈ listedRanges ds, minLines ≤ r.size ∧
        (IsWhole (capturesOf (q.search t)) r ∨ IsSignature kinds t r)) ∧
      ∀ r, IsSignature kinds t r → minLines ≤ r.size → r ∈ listedRanges ds := by
  have hfirst : ∀ c ∈ capturesOf (q.search t), 0 ≤ c.span.first := by
    intro c hc
    obtain ⟨n, hn, hspan⟩ := rows_of_mem_captures hc
    exact hspan ▸ hrows n hn
  obtain ⟨ds, hds, -, hlisted⟩ :=
    synthesize_listedRanges (capturesOf (q.search t)) lines hmin test hfirst
  refine ⟨ds, hds, ?_, ?_⟩
  · intro r hr
    obtain ⟨c, hc, -, rfl, hsize, -⟩ := (hlisted r).mp hr
    exact ⟨hsize, isWhole_or_isSignature hq hc⟩
  · intro r hr hsize
    obtain ⟨c, hc, hdefinition, hname, hspan⟩ := exists_capture_of_isSignature hkinds hr
    exact (hlisted r).mpr ⟨c, hc, hdefinition, hspan, hsize, .inl hname⟩

end Captures

/-- The languages in which a function has a declarator, with the kinds of names in it. -/
def signedLanguages : List (String × List String) :=
  [("c", ["identifier"]), ("cpp", ["identifier", "qualified_identifier", "field_identifier"])]

def Query.signs (kinds : List String) (q : Query) : Bool :=
  q.all (fun p => p.declares || kinds.any (p.signedKind? == some ·)) &&
    kinds.all fun kind => q.any (·.signedKind? == some kind)

theorem Query.signs_iff {kinds : List String} {q : Query} :
    q.signs kinds ↔ (∀ p ∈ q, p.declares ∨ ∃ kind ∈ kinds, p.signedKind? = some kind) ∧
      ∀ kind ∈ kinds, ∃ p ∈ q, p.signedKind? = some kind := by
  simp [Query.signs]

set_option maxRecDepth 8000 in
theorem reads_signs {name : String} {kinds : List String} (h : (name, kinds) ∈ signedLanguages) :
    ∃ l, Language.named? name = some l ∧
      ∃ q, Query.read (.ofLanguage name) l.query.toList = .ok q ∧ Query.signs kinds q := by
  simp only [signedLanguages, List.mem_cons, Prod.mk.injEq, List.not_mem_nil, or_false] at h
  obtain ⟨rfl, rfl⟩ | ⟨rfl, rfl⟩ := h
  all_goals exact ⟨_, rfl, Query.exists_of_readsAs (Query.signs _) String.toList_ofList
    (by decide +kernel)⟩

/-- In C and C++ an outline lists whole definitions, and beside them the signatures of functions:
each one that takes enough lines, whatever the test for inline markup says, and no other part of a
definition. So all that is listed is whole just when every signature of so many lines has the lines
of a whole definition. -/
theorem signatures_listed_beside_definitions (name : String) (kinds : List String)
    (hname : (name, kinds) ∈ signedLanguages) :
    ∃ l q, Language.named? name = some l ∧
      (∀ earlier, Query.compile (.ofLanguage name) l.query earlier = .ok q) ∧
      ∀ t : SyntaxTree, (∀ n ∈ t.nodes, 0 ≤ n.tree.info.rows.first) →
      ∀ (lines : List String) (minLines : Int), 1 ≤ minLines → ∀ test : String → Bool,
        let captures := capturesOf (q.search t)
        ∃ ds, synthesize captures lines minLines (.total test) = .ok ds ∧
          (∀ r ∈ listedRanges ds, IsWhole captures r ∨ IsSignature kinds t r) ∧
          (∀ r, IsSignature kinds t r → minLines ≤ r.size → r ∈ listedRanges ds) ∧
          ((∀ r ∈ listedRanges ds, IsWhole captures r) ↔
            ∀ r, IsSignature kinds t r → minLines ≤ r.size → IsWhole captures r) := by
  obtain ⟨l, hnamed, q, hread, hsigns⟩ := reads_signs hname
  obtain ⟨hq, hkinds⟩ := Query.signs_iff.mp hsigns
  refine ⟨l, q, hnamed, Query.compile_of_read hread, ?_⟩
  intro t hrows lines minLines hmin test captures
  obtain ⟨ds, hds, hsound, hcomplete⟩ := synthesize_signs hq hkinds hrows lines hmin test
  refine ⟨ds, hds, fun r hr => (hsound r hr).2, hcomplete, ?_⟩
  constructor
  · intro hwhole r hr hsize
    exact hwhole r (hcomplete r hr hsize)
  · intro hwhole r hr
    obtain ⟨hsize, hr | hr⟩ := hsound r hr
    · exact hr
    · exact hwhole r hr hsize

def addTree : SyntaxTree :=
  .node ⟨"translation_unit", none, ⟨0, 5⟩, (0, 52), true, false, false⟩
    [.node ⟨"function_definition", none, ⟨0, 4⟩, (0, 51), true, false, false⟩
       [.node ⟨"primitive_type", some "type", ⟨0, 0⟩, (0, 3), true, false, false⟩ [],
        .node ⟨"function_declarator", some "declarator", ⟨0, 1⟩, (4, 29), true, false, false⟩
          [.node ⟨"identifier", some "declarator", ⟨0, 0⟩, (4, 7), true, false, false⟩ [],
           .node ⟨"parameter_list", some "parameters", ⟨0, 1⟩, (7, 29), true, false, false⟩
             [.node ⟨"parameter_declaration", none, ⟨0, 0⟩, (8, 13), true, false, false⟩
                [.node ⟨"primitive_type", some "type", ⟨0, 0⟩, (8, 11), true, false, false⟩ [],
                 .node ⟨"identifier", some "declarator", ⟨0, 0⟩, (12, 13), true, false, false⟩ []],
              .node ⟨"parameter_declaration", none, ⟨1, 1⟩, (23, 28), true, false, false⟩
                [.node ⟨"primitive_type", some "type", ⟨1, 1⟩, (23, 26), true, false, false⟩ [],
                 .node ⟨"identifier", some "declarator", ⟨1, 1⟩, (27, 28), true,
                 false, false⟩ []]]],
        .node ⟨"compound_statement", some "body", ⟨2, 4⟩, (30, 51), true, false, false⟩
          [.node ⟨"return_statement", none, ⟨3, 3⟩, (36, 49), true, false, false⟩
             [.node ⟨"binary_expression", none, ⟨3, 3⟩, (43, 48), true, false, false⟩
                [.node ⟨"identifier", some "left", ⟨3, 3⟩, (43, 44), true, false, false⟩ [],
                 .node ⟨"identifier", some "right", ⟨3, 3⟩, (47, 48), true, false, false⟩ []]]]]]

def addLines : List String :=
  ["int add(int a,", "        int b)", "\x7b", "    return a + b;", "\x7d"]

theorem addTree_rows : ∀ n ∈ addTree.nodes, 0 ≤ n.tree.info.rows.first := by decide +kernel

theorem addTree_signature : IsSignature ["identifier"] addTree ⟨0, 1⟩ := by
  have hfound : ∃ n ∈ addTree.nodes, ∃ m ∈ n.children, ∃ k ∈ m.children,
      n.passes (.kind "function_definition") ∧
      (m.tree.info.field = some "declarator" ∧ m.passes (.kind "function_declarator")) ∧
      (k.tree.info.field = some "declarator" ∧ k.passes (.kind "identifier")) ∧
        m.tree.info.rows = ⟨0, 1⟩ := by
    decide +kernel
  obtain ⟨n, hn, m, hm, k, hk, hfunction, hdeclarator, hkind, hrows⟩ := hfound
  exact ⟨n, hn, m, k, "identifier", .head _, ⟨hfunction, ⟨hm, hdeclarator⟩, hk, hkind⟩, hrows⟩

theorem signatures_listed_beside_definitions_add :
    ("c", ["identifier"]) ∈ signedLanguages ∧ (∀ n ∈ addTree.nodes, 0 ≤ n.tree.info.rows.first) ∧
      ∃ l q ds, Language.named? "c" = some l ∧ Query.compile (.ofLanguage "c") l.query 0 = .ok q ∧
        synthesize (capturesOf (q.search addTree)) addLines 2 InlineMarkup.test = .ok ds ∧
        ⟨0, 1⟩ ∈ listedRanges ds := by
  have hc : ("c", ["identifier"]) ∈ signedLanguages := .head _
  obtain ⟨l, q, hnamed, hcompile, hlisted⟩ :=
    signatures_listed_beside_definitions "c" ["identifier"] hc
  obtain ⟨ds, hds, -, hsignatures, -⟩ :=
    hlisted addTree addTree_rows addLines 2 (by decide) InlineMarkup.holds
  exact ⟨hc, addTree_rows, l, q, ds, hnamed, hcompile 0, hds,
    hsignatures _ addTree_signature (by decide)⟩

set_option maxRecDepth 8000 in
theorem signature_listed_as_part :
    ∃ q ds, Query.compile (.ofLanguage "c") DefinitionQuery.c 0 = .ok q ∧
      synthesize (capturesOf (q.search addTree)) addLines 2 InlineMarkup.test = .ok ds ∧
      ∃ r ∈ listedRanges ds, ¬IsWhole (capturesOf (q.search addTree)) r := by
  obtain ⟨q, hread, htest⟩ : ∃ q, Query.read (.ofLanguage "c") DefinitionQuery.c.toList = .ok q ∧
      Query.signs ["identifier"] q && addTree.nodes.all fun n =>
        n.tree.info.rows != ⟨0, 1⟩ || q.all fun p => (p.trialsAt n).all (·.till.isSome) :=
    Query.exists_of_readsAs (fun q => Query.signs ["identifier"] q && addTree.nodes.all fun n =>
      n.tree.info.rows != ⟨0, 1⟩ || q.all fun p => (p.trialsAt n).all (·.till.isSome))
      String.toList_ofList (by decide +kernel)
  obtain ⟨hsigns, hnone⟩ := Bool.and_eq_true_iff.mp htest
  obtain ⟨hq, hkinds⟩ := Query.signs_iff.mp hsigns
  obtain ⟨ds, hds, -, hsignatures⟩ :=
    synthesize_signs hq hkinds addTree_rows addLines (show (1 : Int) ≤ 2 by decide)
    InlineMarkup.holds
  refine ⟨q, ds, Query.compile_of_read hread 0, hds, ⟨0, 1⟩,
    hsignatures _ addTree_signature (by decide), ?_⟩
  intro hwhole
  obtain ⟨n, hn, ⟨p, hp, ts, hts⟩, hrows⟩ := matches_of_isWhole hq hwhole
  obtain ⟨trial, htrial, htill, -⟩ := (completes_trialsAt p n ts).mpr hts
  simp only [List.all_eq_true, Bool.or_eq_true, bne_iff_ne] at hnone
  rcases hnone n hn with hother | hopen
  · exact hother hrows
  · simpa [htill] using hopen p hp trial htrial

end SourceOutline
