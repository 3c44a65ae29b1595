import Mathlib.Data.List.Count
import Mathlib.Logic.Function.Iterate
import SourceOutline.Extraction.Extractor

/-! Counting errors without looking everywhere. The count goes by a list of pending nodes; it looks
once at every node that is reached through marked nodes, whatever the order, and comes to an end.
Where every error is marked all the way up to the root, nothing that is passed over holds an
error. -/
namespace SourceOutline

namespace SyntaxTree

mutual

/-- The nodes that are reached from the root when only marked nodes are looked into. -/
def reached : SyntaxTree → List SyntaxTree
  | .node i cs => .node i cs :: (if i.hasError then reachedAll cs else [])

def reachedAll : List SyntaxTree → List SyntaxTree
  | [] => []
  | t :: ts => t.reached ++ reachedAll ts

end

theorem reachedAll_eq_flatMap (ts : List SyntaxTree) : reachedAll ts = ts.flatMap reached := by
  induction ts with
  | nil => rfl
  | cons t ts ih => simp [reachedAll, ih]

theorem reachedAll_append (ts us : List SyntaxTree) :
    reachedAll (ts ++ us) = reachedAll ts ++ reachedAll us := by
  simp [reachedAll_eq_flatMap]

theorem reachedAll_perm {ts us : List SyntaxTree} (h : ts.Perm us) :
    (reachedAll ts).Perm (reachedAll us) := by
  simpa [reachedAll_eq_flatMap] using h.flatMap_right reached

end SyntaxTree

namespace ErrorCount

open SyntaxTree

theorem reached_step (found : Nat) (t : SyntaxTree) (pending : List SyntaxTree) :
    (t :: reachedAll (step ⟨found, t :: pending⟩).pending).Perm (reachedAll (t :: pending)) := by
  obtain ⟨info, children⟩ := t
  rw [reachedAll, reached, List.cons_append]
  refine .cons _ ?_
  cases hmarked : info.hasError with
  | true =>
    have hpending : (step ⟨found, .node info children :: pending⟩).pending =
        children.reverse ++ pending := if_pos hmarked
    rw [hpending, reachedAll_append]
    exact (reachedAll_perm children.reverse_perm).append_right _
  | false =>
    have hpending : (step ⟨found, .node info children :: pending⟩).pending = pending :=
      if_neg (by simp [SyntaxTree.info, hmarked])
    rw [hpending]
    exact .refl _

theorem iterate_step (c : ErrorCount) :
    step^[(reachedAll c.pending).length] c =
      ⟨c.found + (reachedAll c.pending).countP isFault, []⟩ := by
  induction c using finish.induct with
  | case1 found => rfl
  | case2 found t pending ih =>
    have hstep := reached_step found t pending
    rw [← hstep.length_eq, ← hstep.countP_eq, List.length_cons, Function.iterate_succ_apply, ih,
      List.countP_cons]
    simp only [step]
    split <;> simp [Nat.add_comm, Nat.add_assoc]

theorem finish_step (c : ErrorCount) : c.step.finish = c.finish := by
  obtain ⟨found, _ | ⟨t, pending⟩⟩ := c
  · rfl
  · rw [finish.eq_2]

theorem finish_eq (c : ErrorCount) :
    c.finish = c.found + (reachedAll c.pending).countP isFault := by
  have hsteps : ∀ n, (step^[n] c).finish = c.finish := by
    intro n
    induction n with
    | zero => rfl
    | succ n ih => rw [Function.iterate_succ_apply', finish_step, ih]
  rw [← hsteps (reachedAll c.pending).length, iterate_step, finish]

end ErrorCount

namespace SyntaxTree

theorem faults_eq (t : SyntaxTree) : t.faults = t.reached.countP isFault := by
  simp [faults, ErrorCount.finish_eq, reachedAll]

mutual

def subtrees : SyntaxTree → List SyntaxTree
  | .node i cs => .node i cs :: subtreesAll cs

def subtreesAll : List SyntaxTree → List SyntaxTree
  | [] => []
  | t :: ts => t.subtrees ++ subtreesAll ts

end

mutual

theorem map_tree_preorder (t : SyntaxTree) (parent : Option LineRange) (depth index : Nat) :
    (t.preorder parent depth index).map (·.tree) = t.subtrees := by
  match t with
  | .node i cs => simp only [preorder, subtrees, List.map_cons, map_tree_preorderAll cs]

theorem map_tree_preorderAll (ts : List SyntaxTree) (parent : Option LineRange)
    (depth index : Nat) : (preorderAll parent depth index ts).map (·.tree) = subtreesAll ts := by
  match ts with
  | [] => rfl
  | t :: ts =>
    simp only [preorderAll, subtreesAll, List.map_append, map_tree_preorder t,
      map_tree_preorderAll ts]

end

theorem map_tree_nodes (t : SyntaxTree) : t.nodes.map (·.tree) = t.subtrees :=
  map_tree_preorder t none 0 0

/-- Every fault is marked, on itself and on all that it is in. -/
def ErrorsMarked (t : SyntaxTree) : Prop :=
  ∀ n ∈ t.nodes, (∃ m ∈ n.tree.nodes, m.tree.isFault) → n.tree.info.hasError

def Clear (t : SyntaxTree) : Prop := t.info.hasError = false → ∀ s ∈ t.subtrees, s.isFault = false

theorem ErrorsMarked.clear {t : SyntaxTree} (h : t.ErrorsMarked) : ∀ s ∈ t.subtrees, s.Clear := by
  rw [← map_tree_nodes, List.forall_mem_map]
  intro n hn hunmarked
  rw [← map_tree_nodes, List.forall_mem_map]
  intro m hm
  by_contra hfault
  rw [Bool.not_eq_false] at hfault
  cases hunmarked.symm.trans (h n hn ⟨m, hm, hfault⟩)

mutual

theorem countP_reached (t : SyntaxTree) (h : ∀ s ∈ t.subtrees, s.Clear) :
    t.reached.countP isFault = t.subtrees.countP isFault := by
  match t with
  | .node i cs =>
    rw [subtrees, List.forall_mem_cons] at h
    obtain ⟨hroot, hbelow⟩ := h
    cases hmarked : i.hasError with
    | true =>
      simp only [reached, subtrees, hmarked, if_true, List.countP_cons, countP_reachedAll cs hbelow]
    | false =>
      have hnone : (subtrees (.node i cs)).countP isFault = 0 :=
        List.countP_eq_zero.mpr fun s hs => by simp [hroot hmarked s hs]
      have hself : isFault (.node i cs) = false := hroot hmarked _ (by simp [subtrees])
      simp [hnone, reached, hmarked, hself]

theorem countP_reachedAll (ts : List SyntaxTree) (h : ∀ s ∈ subtreesAll ts, s.Clear) :
    (reachedAll ts).countP isFault = (subtreesAll ts).countP isFault := by
  match ts with
  | [] => rfl
  | t :: ts =>
    rw [subtreesAll, List.forall_mem_append] at h
    simp only [reachedAll, subtreesAll, List.countP_append, countP_reached t h.1,
      countP_reachedAll ts h.2]

end

theorem ErrorsMarked.errorCount_eq {t : SyntaxTree} (h : t.ErrorsMarked) :
    t.errorCount = t.nodes.countP (·.tree.isFault) := by
  have hall : t.nodes.countP (·.tree.isFault) = t.subtrees.countP isFault := by
    rw [← map_tree_nodes, List.countP_map]
    rfl
  rw [hall, errorCount]
  split
  · rw [faults_eq, countP_reached t h.clear]
  · rename_i hunmarked
    have hroot : t ∈ t.subtrees := by
      cases t
      simp [subtrees]
    refine (List.countP_eq_zero.mpr fun s hs => ?_).symm
    simp [h.clear t hroot (by simpa using hunmarked) s hs]

/-- The same tree, but the children of its nodes may come in another order. -/
inductive Reordered : SyntaxTree → SyntaxTree → Prop where
  | children {i : NodeInfo} {cs ds : List SyntaxTree} (h : cs.Perm ds) :
      Reordered (.node i cs) (.node i ds)
  | within {i : NodeInfo} {before after : List SyntaxTree} {t u : SyntaxTree} (h : Reordered t u) :
      Reordered (.node i (before ++ t :: after)) (.node i (before ++ u :: after))
  | trans {t u v : SyntaxTree} (h : Reordered t u) (k : Reordered u v) : Reordered t v

theorem Reordered.faults_eq {t u : SyntaxTree} (h : Reordered t u) : u.faults = t.faults := by
  rw [u.faults_eq, t.faults_eq]
  induction h with
  | children h =>
    rename_i i cs ds
    have hroot : isFault (.node i ds) = isFault (.node i cs) := rfl
    simp only [reached, List.countP_cons, hroot]
    split
    · rw [(reachedAll_perm h).countP_eq]
    · rfl
  | within h ih =>
    rename_i i before after t u
    have hroot : isFault (.node i (before ++ u :: after)) =
        isFault (.node i (before ++ t :: after)) := rfl
    simp only [reached, List.countP_cons, hroot, reachedAll_append, reachedAll]
    split
    · simp only [List.countP_append, ih]
    · rfl
  | trans h k ihh ihk => exact ihk.trans ihh

/-- The errors of a parsed text are all its error nodes and missing nodes, if these are marked as
parsers mark them. On any tree the count comes to its end, with each node that is reached through
marked nodes looked at once, and the order of children makes no difference. -/
theorem error_count_lossless (t : SyntaxTree) :
    (t.ErrorsMarked → ∀ language, ∃ parsed, Parsed.ofOutcome language (.ok (some t)) = .ok parsed ∧
        parsed.errors = t.nodes.countP (·.tree.isFault)) ∧
      ErrorCount.step^[t.reached.length] ⟨0, [t]⟩ = ⟨t.faults, []⟩ ∧
      t.faults = t.reached.countP isFault ∧
      ∀ u, Reordered t u → u.faults = t.faults := by
  refine ⟨fun hmarked language => ⟨_, rfl, hmarked.errorCount_eq⟩, ?_, t.faults_eq,
    fun u hu => hu.faults_eq⟩
  have hsteps := ErrorCount.iterate_step ⟨0, [t]⟩
  simpa [reachedAll, ← t.faults_eq] using hsteps

def brokenText : List SyntaxTree :=
  [.node ⟨"pass_statement", none, ⟨0, 0⟩, (0, 4), true, false, false⟩ [],
   .node ⟨"ERROR", none, ⟨1, 1⟩, (5, 9), true, false, true⟩
     [.node ⟨"identifier", none, ⟨1, 1⟩, (5, 8), true, false, false⟩ [],
      .node ⟨")", none, ⟨1, 1⟩, (9, 9), false, true, true⟩ []]]

def brokenRoot : NodeInfo := ⟨"module", none, ⟨0, 1⟩, (0, 9), true, false, true⟩

/-- Two errors, one inside the other, and the statement beside them before or after. -/
theorem error_count_lossless_broken :
    let t := node brokenRoot brokenText
    let u := node brokenRoot brokenText.reverse
    t.ErrorsMarked ∧ Reordered t u ∧ u.faults = t.faults ∧
      ∃ parsed, Parsed.ofOutcome "python" (.ok (some t)) = .ok parsed ∧ parsed.errors = 2 := by
  intro t u
  have hmarked : t.ErrorsMarked := by
    unfold ErrorsMarked
    decide +kernel
  have hreordered : Reordered t u := .children brokenText.reverse_perm.symm
  have htwo : t.nodes.countP (·.tree.isFault) = 2 := by decide +kernel
  obtain ⟨hlossless, -, -, horder⟩ := error_count_lossless t
  exact ⟨hmarked, hreordered, horder u hreordered, htwo ▸ hlossless hmarked "python"⟩

end SyntaxTree

end SourceOutline
