import Mathlib.Data.Finset.Lattice.Lemmas
import SourceOutline.Proofs.Language.Declarations
import SourceOutline.Proofs.Outline.Records
import SourceOutline.Proofs.Query.Concatenation

/-! Queries made of parts, as those of dialects are. What a part finds alone it finds in company
too, and what is listed for the whole is what is listed for its parts, though the captures are
sorted and sifted only after they were mixed. -/
namespace SourceOutline

/-- The definitions that a query finds in a tree. -/
def Query.records (q : Query) (t : SyntaxTree) (lines : List String) (minLines : Int)
    (test : String → Bool) : Except SynthesisError (Finset Definition) :=
  (synthesize (capturesOf (q.search t)) lines minLines (.total test)).map recordsOf

section Records

variable (t : SyntaxTree) (lines : List String) {minLines : Int} (hmin : 1 ≤ minLines)
  (test : String → Bool)

include hmin

theorem Query.records_append (q q' : Query) : Query.records (q ++ q') t lines minLines test =
    (q.records t lines minLines test).bind fun a =>
      (q'.records t lines minLines test).map (a ∪ ·) :=
  records_of_union hmin fun _ => Query.mem_capturesOf_append

theorem Query.exists_records (q : Query) (hrows : ∀ n ∈ t.nodes, 0 ≤ n.tree.info.rows.first) :
    ∃ a, q.records t lines minLines test = .ok a := by
  have hstart : ∀ c ∈ capturesOf (q.search t), 0 ≤ c.span.first := by
    intro c hc
    obtain ⟨n, hn, hspan⟩ := rows_of_mem_captures hc
    exact hspan ▸ hrows n hn
  obtain ⟨ds, hds, -⟩ := synthesize_listedRanges _ lines hmin test hstart
  exact ⟨recordsOf ds, by rw [Query.records, hds]; rfl⟩

end Records

theorem mem_captures_kind {kind tag : String} {t : SyntaxTree} {c : Capture} :
    c ∈ capturesOf (Query.search [.node (.kind kind) [] [tag]] t) ↔
      ∃ n ∈ t.nodes, n.passes (.kind kind) ∧ Capture.ofNode tag n.span = c := by
  have htags : ∀ {n out}, (Pattern.node (.kind kind) [] [tag]).Tags [] n out ↔
      n.passes (.kind kind) ∧ out = [⟨tag, n.index, n.span⟩] := by
    intro n out
    simp [Pattern.Tags, Pattern.TagsAmong, Located.tag, maxTags]
  simp only [mem_capturesOf_search, List.mem_singleton]
  constructor
  · rintro ⟨n, hn, p, rfl, f, hf, x, hx, rfl⟩
    obtain ⟨hpasses, hout⟩ := htags.mp (tags_of_mem_distinct hf)
    rw [hout, List.mem_singleton] at hx
    exact ⟨n, hn, hpasses, by rw [hx]⟩
  · rintro ⟨n, hn, hpasses, rfl⟩
    obtain ⟨f, hf, hout⟩ := exists_mem_distinct_of_tags (htags.mpr ⟨hpasses, rfl⟩)
      (fun ts hts => by rw [(htags.mp hts).2]) t.nodes
    exact ⟨n, hn, _, rfl, f, hf, ⟨tag, n.index, n.span⟩, by simp [hout], rfl⟩

theorem mem_records_kind {kind tag : String} (htag : isBlockTag tag) {t : SyntaxTree}
    {lines : List String} {minLines : Int} (hmin : 1 ≤ minLines) {test : String → Bool}
    {a : Finset Definition}
    (h : Query.records [.node (.kind kind) [] [tag]] t lines minLines test = .ok a)
    {d : Definition} :
    d ∈ a ↔ (∃ n ∈ t.nodes, n.passes (.kind kind) ∧ n.tree.info.rows = d.range) ∧
      minLines ≤ d.range.size ∧
      labelAt lines d.range.first = .ok d.label ∧ test d.label = false := by
  have hkinds := htag
  simp only [isBlockTag, Bool.and_eq_true, Bool.not_eq_true'] at hkinds
  obtain ⟨hdefinition, hname⟩ := hkinds
  rw [mem_records hmin h]
  constructor
  · rintro ⟨hlabel, c, hc, -, hspan, hsize, hkept⟩
    obtain ⟨n, hn, hpasses, rfl⟩ := mem_captures_kind.mp hc
    rw [Capture.span_ofNode_block htag] at hspan
    refine ⟨⟨n, hn, hpasses, hspan⟩, hsize, hlabel, hkept.resolve_left ?_⟩
    simp [Capture.isName, Capture.ofNode, hname]
  · rintro ⟨⟨n, hn, hpasses, hrows⟩, hsize, hlabel, hkept⟩
    refine ⟨hlabel, _, mem_captures_kind.mpr ⟨n, hn, hpasses, rfl⟩, hdefinition, ?_,
      hsize, .inr hkept⟩
    rw [Capture.span_ofNode_block htag, hrows]

def Query.isForKind (kind : String) : Query → Bool
  | [.node (.kind k) [] [tag]] => k == kind && isBlockTag tag
  | _ => false

theorem Query.exists_of_isForKind {kind : String} {q : Query} (h : q.isForKind kind) :
    ∃ tag, isBlockTag tag ∧ q = [.node (.kind kind) [] [tag]] := by
  unfold Query.isForKind at h
  split at h
  · rename_i k tag
    obtain ⟨hkind, htag⟩ := Bool.and_eq_true_iff.mp h
    exact ⟨tag, htag, by rw [eq_of_beq hkind]⟩
  · cases h

namespace DefinitionQuery

set_option maxRecDepth 8000 in
theorem reads_markupElements : ∃ tag, isBlockTag tag ∧
    Query.read .unlimited markupElements.toList = .ok [.node (.kind "jsx_element") [] [tag]] := by
  obtain ⟨q, hread, hq⟩ : ∃ q, Query.read .unlimited markupElements.toList = .ok q ∧
      Query.isForKind "jsx_element" q :=
    Query.exists_of_readsAs _ String.toList_ofList (by decide +kernel)
  obtain ⟨tag, htag, rfl⟩ := Query.exists_of_isForKind hq
  exact ⟨tag, htag, hread⟩

set_option maxRecDepth 8000 in
theorem reads_typescript :
    typescript.toList.getLast? = some '\n' ∧
      ∃ q, Query.read .unlimited typescript.toList = .ok q := by
  have htext : typescript.toList = _ :=
    String.toList_append.trans (congrArg₂ (· ++ ·) String.toList_ofList String.toList_ofList)
  obtain ⟨q, hread, -⟩ : ∃ q, Query.read .unlimited typescript.toList = .ok q ∧ true :=
    Query.exists_of_readsAs (fun _ => true) htext (by decide +kernel)
  exact ⟨by rw [htext]; decide +kernel, q, hread⟩

end DefinitionQuery

/-- Putting queries together hides nothing. The text of two queries, the first of which ends its
last line, is a query that lists what either of them lists; so an outline in the dialect with markup
lists what one in the dialect without it lists, and the markup elements that are long enough and
whose first lines the test lets through. -/
theorem combined_queries_hide_nothing :
    (∀ (v : Vocabulary) (text text' : String) (q q' : Query), text.toList.getLast? = some '\n' →
      Query.compile v text 0 = .ok q → Query.compile v text' 0 = .ok q' →
      ∃ both, (∀ earlier, Query.compile v (text ++ text') earlier = .ok both) ∧
        ∀ (t : SyntaxTree) (lines : List String) (minLines : Int), 1 ≤ minLines →
        ∀ test : String → Bool,
          (both.records t lines minLines test =
            (q.records t lines minLines test).bind fun a =>
              (q'.records t lines minLines test).map (a ∪ ·)) ∧
          ((∀ n ∈ t.nodes, 0 ≤ n.tree.info.rows.first) →
            ∃ a, both.records t lines minLines test = .ok a)) ∧
    ∃ tsx typescript q q', Language.named? "tsx" = some tsx ∧
      Language.named? "typescript" = some typescript ∧
      (∀ earlier, Query.compile (.ofLanguage "tsx") tsx.query earlier = .ok q) ∧
      (∀ earlier, Query.compile (.ofLanguage "typescript") typescript.query earlier = .ok q') ∧
      ∀ (t : SyntaxTree) (lines : List String) (minLines : Int), 1 ≤ minLines →
      ∀ test : String → Bool,
        ((∀ n ∈ t.nodes, 0 ≤ n.tree.info.rows.first) →
          ∃ a, q.records t lines minLines test = .ok a) ∧
        ∀ a, q.records t lines minLines test = .ok a →
          ∃ b, q'.records t lines minLines test = .ok b ∧
          ∀ d, d ∈ a ↔ d ∈ b ∨
            (∃ n ∈ t.nodes, n.passes (.kind "jsx_element") ∧ n.tree.info.rows = d.range) ∧
            minLines ≤ d.range.size ∧ labelAt lines d.range.first = .ok d.label ∧
              test d.label = false := by
  constructor
  · intro v text text' q q' hfeed hcompile hcompile'
    have hread :=
      Query.read_append hfeed (Query.read_of_compile hcompile) (Query.read_of_compile hcompile')
    rw [← String.toList_append] at hread
    refine ⟨q ++ q', Query.compile_of_read hread, fun t lines minLines hmin test => ⟨?_, ?_⟩⟩
    · exact Query.records_append t lines hmin test q q'
    · exact Query.exists_records t lines hmin test (q ++ q')
  · obtain ⟨hfeed, q, hread⟩ := DefinitionQuery.reads_typescript
    obtain ⟨tag, htag, hmarkup⟩ := DefinitionQuery.reads_markupElements
    have hboth := Query.read_append hfeed hread hmarkup
    rw [← String.toList_append] at hboth
    refine ⟨_, _, _, q, rfl, rfl, Query.compile_of_read hboth, Query.compile_of_read hread, ?_⟩
    intro t lines minLines hmin test
    refine ⟨Query.exists_records t lines hmin test _, fun a ha => ?_⟩
    rw [Query.records_append t lines hmin test] at ha
    cases hb : q.records t lines minLines test with
    | error e =>
      rw [hb] at ha
      cases ha
    | ok b =>
      cases helements : Query.records [.node (.kind "jsx_element") [] [tag]] t lines
        minLines test with
      | error e =>
        rw [hb, helements] at ha
        cases ha
      | ok elements =>
        rw [hb, helements] at ha
        cases ha
        refine ⟨b, rfl, fun d => ?_⟩
        rw [Finset.mem_union, mem_records_kind htag hmin helements]

set_option maxRecDepth 8000 in
/-- The first query finds a function as a block, and the test keeps it out; the second finds it by
its name. -/
theorem combined_queries_hide_nothing_function :
    let text := "(function_definition) @definition.function\n"
    let d : Definition := ⟨⟨0, 3⟩, "def f():", by decide⟩
    text.toList.getLast? = some '\n' ∧
      ∃ q q' both a, Query.compile (.ofLanguage "python") text 0 = .ok q ∧
      Query.compile (.ofLanguage "python") DefinitionQuery.python 0 = .ok q' ∧
      Query.compile (.ofLanguage "python") (text ++ DefinitionQuery.python) 0 = .ok both ∧
      q.records functionTree ["def f():"] 2 (fun _ => true) = .ok ∅ ∧
      both.records functionTree ["def f():"] 2 (fun _ => true) = .ok a ∧ d ∈ a := by
  intro text d
  have hmin : (1 : Int) ≤ 2 := by decide
  have hfeed : text.toList.getLast? = some '\n' := by
    rw [(String.toList_ofList : text.toList = _)]
    decide +kernel
  have hrows : ∀ n ∈ functionTree.nodes, 0 ≤ n.tree.info.rows.first := by decide +kernel
  obtain ⟨q, hread, hq⟩ : ∃ q, Query.read (.ofLanguage "python") text.toList = .ok q ∧
      Query.isForKind "function_definition" q :=
    Query.exists_of_readsAs _ String.toList_ofList (by decide +kernel)
  obtain ⟨q', hread', hq'⟩ : ∃ q,
      Query.read (.ofLanguage "python") DefinitionQuery.python.toList = .ok q ∧
      (q.all Pattern.declares && q.any fun p => (p.trialsAt ⟨functionTree, 0, 0, none⟩).any
        (·.till.isNone)) :=
    Query.exists_of_readsAs _ String.toList_ofList (by decide +kernel)
  obtain ⟨both, hboth, hrecords⟩ :=
    combined_queries_hide_nothing.1 (.ofLanguage "python") text _ q q' hfeed
    (Query.compile_of_read hread 0) (Query.compile_of_read hread' 0)
  obtain ⟨hunion, -⟩ := hrecords functionTree ["def f():"] 2 hmin fun _ => true
  have hblock : q.records functionTree ["def f():"] 2 (fun _ => true) = .ok ∅ := by
    obtain ⟨a, ha⟩ := Query.exists_records functionTree ["def f():"] hmin (fun _ => true) q hrows
    obtain ⟨tag, htag, rfl⟩ := Query.exists_of_isForKind hq
    have hempty : a = ∅ := Finset.eq_empty_of_forall_notMem fun d hd => by
      obtain ⟨-, -, -, hkept⟩ := (mem_records_kind htag hmin ha).mp hd
      cases hkept
    rw [ha, hempty]
  obtain ⟨a, ha⟩ := Query.exists_records functionTree ["def f():"] hmin (fun _ => true) q' hrows
  have hd : d ∈ a := by
    obtain ⟨hdeclares, hfound⟩ := Bool.and_eq_true_iff.mp hq'
    obtain ⟨p, hp, hcomplete⟩ := List.any_eq_true.mp hfound
    obtain ⟨trial, htrial, htill⟩ := List.any_eq_true.mp hcomplete
    have hmatches : p.Matches ⟨functionTree, 0, 0, none⟩ :=
      ⟨_, (completes_trialsAt p _ _).mp ⟨trial, htrial, by simpa using htill, rfl⟩⟩
    have hnode : ⟨functionTree, 0, 0, none⟩ ∈ functionTree.nodes := .head _
    obtain ⟨c, hc, hdefinition, hname, hspan⟩ :=
      exists_captures (List.all_eq_true.mp hdeclares) hnode hp hmatches true
    have htitle : titleAt ["def f():"] 0 = "def f():" := by decide +kernel
    have hlabel := labelAt_of_nonneg ["def f():"] (Int.le_refl 0)
    rw [htitle] at hlabel
    exact (mem_records hmin ha).mpr ⟨hlabel, c, hc, hdefinition, hspan, by decide, .inl hname⟩
  refine ⟨hfeed, q, q', both, a, Query.compile_of_read hread 0, Query.compile_of_read hread' 0,
    hboth 0, hblock, ?_, hd⟩
  rw [hunion, hblock, ha]
  exact congrArg Except.ok (Finset.empty_union a)

end SourceOutline
