import Mathlib
import SourceOutline.Proofs.Language.Declarations
import SourceOutline.Proofs.Text.DecodedLines

/-! Where listed ranges end. A syntax tree counts rows in line feeds, and the end of a node is the
place after its last byte; but a line feed at the very end opens no further line. So a node that
ends there, line feed included, ends in a row past the last line, and the range that is listed for
it does too. No other range leaves the file, and none starts outside of it. -/
namespace SourceOutline

open Text Utf8

/-- A node lies in the content, and its rows are the numbers of line feeds before its two ends. -/
def NodeInfo.LiesIn (content : Bytes) (i : NodeInfo) : Prop :=
  0 ≤ i.bytes.1 ∧ i.bytes.1 ≤ i.bytes.2 ∧ i.bytes.2 ≤ content.length ∧
    i.rows = ⟨(content.take i.bytes.1.toNat).count lineFeed,
      (content.take i.bytes.2.toNat).count lineFeed⟩

instance (content : Bytes) (i : NodeInfo) : Decidable (i.LiesIn content) :=
  inferInstanceAs (Decidable (_ ∧ _))

def SyntaxTree.LiesIn (content : Bytes) (t : SyntaxTree) : Prop :=
  ∀ n ∈ t.nodes, n.tree.info.LiesIn content

/-- The end of a node is the end of a content that ends in a line feed. -/
def NodeInfo.TakesFinalFeed (content : Bytes) (i : NodeInfo) : Prop :=
  content.getLast? = some lineFeed ∧ i.bytes.2 = content.length

theorem length_lines_decode (content : Bytes) :
    (lines (decode content)).length =
      if content.getLast? = some lineFeed then content.count lineFeed
        else content.count lineFeed + 1 := by
  rw [lines_decode, List.length_map, byteLines_eq]
  split
  · rw [List.length_dropLast, length_splitOn, Nat.add_sub_cancel]
  · exact length_splitOn lineFeed content

theorem count_take_lt {content : Bytes} (hfeed : content.getLast? = some lineFeed) {stop : Nat}
    (hstop : stop < content.length) :
    (content.take stop).count lineFeed < content.count lineFeed := by
  have hlast : (content.drop stop).getLast? = some lineFeed := by
    rw [List.getLast?_drop, if_neg (by omega), hfeed]
  have hrest : 0 < (content.drop stop).count lineFeed :=
    List.count_pos_iff.mpr (List.mem_of_getLast? hlast)
  calc (content.take stop).count lineFeed
      < (content.take stop).count lineFeed + (content.drop stop).count lineFeed := by omega
    _ = content.count lineFeed := by rw [← List.count_append, List.take_append_drop]

namespace NodeInfo.LiesIn

variable {content : Bytes} {i : NodeInfo} (h : i.LiesIn content)

include h

theorem first_nonneg : 0 ≤ i.rows.first := by
  rw [h.2.2.2]
  exact Int.natCast_nonneg _

theorem last_le : i.rows.last ≤ (lines (decode content)).length := by
  have hcount : (content.take i.bytes.2.toNat).count lineFeed ≤ content.count lineFeed :=
    (List.take_sublist _ _).count_le _
  rw [h.2.2.2, length_lines_decode]
  dsimp only
  split <;> omega

theorem last_lt_iff :
    i.rows.last < (lines (decode content)).length ↔ ¬i.TakesFinalFeed content := by
  obtain ⟨hstart, hordered, hstop, hrows⟩ := h
  have hcount : (content.take i.bytes.2.toNat).count lineFeed ≤ content.count lineFeed :=
    (List.take_sublist _ _).count_le _
  rw [hrows, length_lines_decode, TakesFinalFeed]
  dsimp only
  split
  · rename_i hfeed
    by_cases hend : i.bytes.2 = content.length
    · simp [hfeed, hend]
    · have hlt := count_take_lt hfeed (show i.bytes.2.toNat < content.length by omega)
      simp only [hfeed, hend, and_false, not_false_iff, iff_true]
      omega
  · rename_i hfeed
    simp only [hfeed, false_and, not_false_iff, iff_true]
    omega

end NodeInfo.LiesIn

theorem synthesize_of_tree {content : Bytes} {t : SyntaxTree} (ht : t.LiesIn content) (q : Query)
    (minLines : Int) (hmin : 1 ≤ minLines) (test : String → Bool) :
    ∃ ds, synthesize (capturesOf (q.search t)) (lines (decode content)) minLines
      (.total test) = .ok ds ∧
      (∀ r ∈ listedRanges ds, minLines ≤ r.size ∧ ∃ n ∈ t.nodes, n.tree.info.rows = r) ∧
      ∀ r, r ∈ listedRanges ds ↔ ∃ c ∈ capturesOf (q.search t), c.isDefinition ∧ c.span = r ∧
        minLines ≤ r.size ∧
        (c.isName ∨ test (titleAt (lines (decode content)) r.first) = false) := by
  obtain ⟨ds, hds, -, hlisted⟩ :=
    synthesize_listedRanges (capturesOf (q.search t)) (lines (decode content)) hmin test
    (by
      intro c hc
      obtain ⟨n, hn, hrows⟩ := rows_of_mem_captures hc
      exact hrows ▸ (ht n hn).first_nonneg)
  refine ⟨ds, hds, fun r hr => ?_, hlisted⟩
  obtain ⟨c, hc, -, rfl, hsize, -⟩ := (hlisted r).mp hr
  exact ⟨hsize, rows_of_mem_captures hc⟩

/-- A listed range starts inside the file and ends there or, by one line, after it. It ends inside
just when none of the nodes on these lines takes a final line feed; so all ranges end inside just
when this holds for all of them. -/
theorem ranges_leave_file_by_final_feed (content : Bytes) (t : SyntaxTree) (ht : t.LiesIn content)
    (q : Query) (minLines : Int) (hmin : 2 ≤ minLines) (test : String → Bool) :
    let lines := lines (decode content)
    ∃ ds, synthesize (capturesOf (q.search t)) lines minLines (.total test) = .ok ds ∧
      (∀ r ∈ listedRanges ds, 0 ≤ r.first ∧ r.first ≤ r.last ∧ r.first < lines.length ∧
        r.last ≤ lines.length) ∧
      ((∀ r ∈ listedRanges ds, r.last < lines.length) ↔
        ∀ r ∈ listedRanges ds, ∀ n ∈ t.nodes, n.tree.info.rows = r →
          ¬n.tree.info.TakesFinalFeed content) := by
  intro lines
  obtain ⟨ds, hds, hnode, -⟩ := synthesize_of_tree ht q minLines (by omega) test
  refine ⟨ds, hds, fun r hr => ?_, ?_⟩
  · obtain ⟨hsize, n, hn, rfl⟩ := hnode r hr
    have hfirst := (ht n hn).first_nonneg
    have hlast : n.tree.info.rows.last ≤ lines.length := (ht n hn).last_le
    unfold LineRange.size at hsize
    exact ⟨hfirst, by omega, by omega, hlast⟩
  · constructor
    · rintro hinside r hr n hn rfl
      exact (ht n hn).last_lt_iff.mp (hinside _ hr)
    · intro hnone r hr
      obtain ⟨-, n, hn, rfl⟩ := hnode r hr
      exact (ht n hn).last_lt_iff.mpr (hnone _ hr n hn rfl)

def tableTree : SyntaxTree :=
  .node ⟨"document", none, ⟨0, 2⟩, (0, 10), true, false, false⟩
    [.node ⟨"table", none, ⟨0, 2⟩, (0, 10), true, false, false⟩
      [.node ⟨"bare_key", none, ⟨0, 0⟩, (1, 2), true, false, false⟩ [],
       .node ⟨"pair", none, ⟨1, 1⟩, (4, 9), true, false, false⟩
        [.node ⟨"bare_key", none, ⟨1, 1⟩, (4, 5), true, false, false⟩ [],
         .node ⟨"integer", none, ⟨1, 1⟩, (8, 9), true, false, false⟩ []]]]

def tableContent : Bytes := [0x5B, 0x61, 0x5D, 0x0A, 0x78, 0x20, 0x3D, 0x20, 0x31, 0x0A]

theorem tableTree_liesIn : tableTree.LiesIn tableContent := by
  unfold SyntaxTree.LiesIn
  decide +kernel

theorem length_lines_tableContent : (lines (decode tableContent)).length = 2 := by
  rw [length_lines_decode]
  decide +kernel

set_option maxRecDepth 8000 in
theorem table_listed : ∃ q, Query.read (.ofLanguage "toml") DefinitionQuery.toml.toList = .ok q ∧
    ∀ ds, synthesize (capturesOf (q.search tableTree)) (lines (decode tableContent)) 2
      InlineMarkup.test = .ok ds → ⟨0, 2⟩ ∈ listedRanges ds := by
  let table : Located := ⟨tableTree.children.headD tableTree, 1, 1, some ⟨0, 2⟩⟩
  have htable : table ∈ tableTree.nodes := .tail _ (.head _)
  obtain ⟨q, hread, htest⟩ : ∃ q,
      Query.read (.ofLanguage "toml") DefinitionQuery.toml.toList = .ok q ∧
      q.all Pattern.declares && q.any fun p => (p.trialsAt table).any (·.till.isNone) :=
    Query.exists_of_readsAs (fun q => q.all Pattern.declares &&
      q.any fun p => (p.trialsAt table).any (·.till.isNone))
      String.toList_ofList (by decide +kernel)
  obtain ⟨hdeclares, hfound⟩ := Bool.and_eq_true_iff.mp htest
  obtain ⟨p, hp, hcomplete⟩ := List.any_eq_true.mp hfound
  obtain ⟨trial, htrial, htill⟩ := List.any_eq_true.mp hcomplete
  have hmatches : p.Matches table :=
    ⟨_, (completes_trialsAt p _ _).mp ⟨trial, htrial, by simpa using htill, rfl⟩⟩
  obtain ⟨c, hc, hdefinition, hname, hspan⟩ :=
    exists_captures (List.all_eq_true.mp hdeclares) htable hp hmatches true
  obtain ⟨ds, hds, -, hlisted⟩ :=
    synthesize_of_tree tableTree_liesIn q 2 (by decide) InlineMarkup.holds
  refine ⟨q, hread, fun ds' hds' => ?_⟩
  cases hds.symm.trans hds'
  exact (hlisted _).mpr ⟨c, hc, hdefinition, hspan, by decide, .inl hname⟩

theorem ranges_leave_file_by_final_feed_table :
    tableTree.LiesIn tableContent ∧ (2 : Int) ≤ 2 ∧
      ∃ q ds, Query.read (.ofLanguage "toml") DefinitionQuery.toml.toList = .ok q ∧
        synthesize (capturesOf (q.search tableTree)) (lines (decode tableContent)) 2
          InlineMarkup.test = .ok ds ∧
        ∃ r ∈ listedRanges ds, r.last ≤ (lines (decode tableContent)).length ∧
          ∃ n ∈ tableTree.nodes, n.tree.info.rows = r ∧
            n.tree.info.TakesFinalFeed tableContent := by
  obtain ⟨q, hread, hlisted⟩ := table_listed
  obtain ⟨ds, hds, hbounds, -⟩ :=
    ranges_leave_file_by_final_feed tableContent tableTree tableTree_liesIn q 2 (by decide)
    InlineMarkup.holds
  have hmem := hlisted ds hds
  refine ⟨tableTree_liesIn, by decide, q, ds, hread, hds, ⟨0, 2⟩, hmem, (hbounds _ hmem).2.2.2, ?_⟩
  exact ⟨⟨tableTree, 0, 0, none⟩, .head _, rfl, rfl, rfl⟩

/-- The table takes the final line feed, and its range goes on to a third line that is not there. -/
theorem table_range_leaves_file :
    tableTree.LiesIn tableContent ∧
      ∃ q ds, Query.compile (.ofLanguage "toml") DefinitionQuery.toml 0 = .ok q ∧
      synthesize (capturesOf (q.search tableTree)) (lines (decode tableContent)) 2
        InlineMarkup.test = .ok ds ∧
      ∃ r ∈ listedRanges ds, ¬r.last < (lines (decode tableContent)).length := by
  obtain ⟨q, hread, hlisted⟩ := table_listed
  obtain ⟨ds, hds, -⟩ := synthesize_of_tree tableTree_liesIn q 2 (by decide) InlineMarkup.holds
  refine ⟨tableTree_liesIn, q, ds, Query.compile_of_read hread 0, hds, ⟨0, 2⟩, hlisted ds hds, ?_⟩
  rw [length_lines_tableContent]
  decide

end SourceOutline
