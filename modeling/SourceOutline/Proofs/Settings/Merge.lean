import Mathlib.Data.List.Basic
import SourceOutline.Settings.Load

/-! Merging settings. A merge goes down level by level as long as both sides have a map, and fails
only where they have more levels of maps in common than it may go down. In entries that hold nothing
but sections, and no key twice, the merge of two sources holds under each key of a section what the
higher source has there, and otherwise what the lower one has. -/
namespace SourceOutline

namespace Scalar

theorem same_text_iff {a : Scalar} {s : String} : a.same (.text s) ↔ a = .text s := by
  cases a with
  | real x => cases hx : x.toInt? <;> simp [same, whole?, hx]
  | _ => simp [same, whole?]

theorem text_same_iff {a : Scalar} {s : String} : (Scalar.text s).same a ↔ a = .text s := by
  cases a with
  | real x => cases hx : x.toInt? <;> simp [same, whole?, hx]
  | text t =>
    simp only [same, whole?, beq_iff_eq, text.injEq]
    exact eq_comm
  | _ => simp [same, whole?]

end Scalar

def DistinctKeys (keys : List Scalar) : Prop := keys.Pairwise fun a b => a.same b = false

theorem DistinctKeys.text_notMem {k : String} {keys : List Scalar}
    (h : DistinctKeys (.text k :: keys)) : .text k ∉ keys := by
  intro hmem
  have hother := (List.pairwise_cons.mp h).1 _ hmem
  rw [Scalar.same_text_iff.mpr rfl] at hother
  cases hother

section Put

variable {α : Type} (key : Scalar) (a : α) {es : List (Scalar × α)}

theorem names_putKey (es : List (Scalar × α)) : (putKey key a es).map (·.1) = es.map (·.1) ∨
    (∀ e ∈ es, e.1.same key = false) ∧ (putKey key a es).map (·.1) = es.map (·.1) ++ [key] := by
  induction es with
  | nil => simp [putKey]
  | cons e es ih =>
    by_cases hsame : e.1.same key
    · simp [putKey, hsame]
    · rcases ih with hsames | ⟨hnone, hnew⟩
      · left
        simp [putKey, hsame, hsames]
      · right
        simp only [Bool.not_eq_true] at hsame
        simpa [putKey, hsame, hnew] using hnone

theorem distinctKeys_putKey (h : DistinctKeys (es.map (·.1))) :
    DistinctKeys ((putKey key a es).map (·.1)) := by
  rcases names_putKey key a es with hnames | ⟨hnone, hnames⟩
  · rwa [hnames]
  · rw [hnames]
    refine List.pairwise_append.mpr ⟨h, List.pairwise_singleton _ _, ?_⟩
    intro k hk k' hk'
    obtain ⟨e, he, rfl⟩ := List.mem_map.mp hk
    cases List.mem_singleton.mp hk'
    exact hnone e he

variable {key a} in
theorem mem_names_putKey {k : Scalar} (h : k ∈ (putKey key a es).map (·.1)) :
    k = key ∨ k ∈ es.map (·.1) := by
  rcases names_putKey key a es with hnames | ⟨-, hnames⟩
  · exact .inr (hnames ▸ h)
  · rw [hnames, List.mem_append, List.mem_singleton] at h
    exact h.symm

variable {key a} in
theorem mem_putKey {e : Scalar × α} (h : e ∈ putKey key a es) : e.2 = a ∨ e ∈ es := by
  induction es with
  | nil =>
    cases List.mem_singleton.mp h
    exact .inl rfl
  | cons f es ih =>
    rw [putKey] at h
    split at h
    · rcases List.mem_cons.mp h with rfl | h
      · exact .inl rfl
      · exact .inr (.tail _ h)
    · rcases List.mem_cons.mp h with rfl | h
      · exact .inr (.head _)
      · exact (ih h).imp_right (.tail _)

theorem foldl_putKey (done : List (Scalar × α)) (h : DistinctKeys ((done ++ es).map (·.1))) :
    es.foldl (fun done e => putKey e.1 e.2 done) done = done ++ es := by
  induction es generalizing done with
  | nil => simp
  | cons e es ih =>
    have hput : putKey e.1 e.2 done = done ++ [e] := by
      have hnone : ∀ d ∈ done, d.1.same e.1 = false := by
        intro d hd
        rw [List.map_append] at h
        exact (List.pairwise_append.mp h).2.2 d.1 (List.mem_map_of_mem hd) e.1 (by simp)
      clear ih h
      induction done with
      | nil => rfl
      | cons d done ih =>
        obtain ⟨hd, hdone⟩ := List.forall_mem_cons.mp hnone
        simp [putKey, hd, ih hdone]
    rw [List.foldl_cons, hput, ih _ (by simpa using h)]
    simp

end Put

namespace Entries

theorem get?_cons (e : Scalar × Value) (es : Entries) (k : String) :
    get? (e :: es) k = if e.1 = .text k then some e.2 else get? es k := by
  unfold get? find?
  rw [List.find?_cons]
  by_cases he : e.1 = .text k
  · simp [he, Scalar.same_text_iff.mpr]
  · have hsame : e.1.same (.text k) = false := by
      rw [← Bool.not_eq_true, Scalar.same_text_iff]
      exact he
    simp [he, hsame]

theorem get?_put (key : Scalar) (v : Value) (es : Entries) (k : String) :
    (es.put key v).get? k = if key = .text k then some v else es.get? k := by
  induction es with
  | nil => exact get?_cons (key, v) [] k
  | cons e es ih =>
    unfold put putKey
    split
    · rename_i hsame
      rw [get?_cons, get?_cons]
      have hiff : e.1 = .text k ↔ key = .text k := by
        constructor
        · intro he
          rw [he] at hsame
          exact Scalar.text_same_iff.mp hsame
        · rintro rfl
          exact Scalar.same_text_iff.mp hsame
      by_cases hkey : key = .text k <;> simp [hiff, hkey]
    · rename_i hother
      rw [get?_cons, get?_cons, ih]
      by_cases hkey : key = .text k
      · subst hkey
        rw [Scalar.same_text_iff] at hother
        simp [hother]
      · simp [hkey]

theorem get?_eq_none_iff {es : Entries} {k : String} : es.get? k = none ↔ .text k ∉ es.names := by
  induction es with
  | nil => simp [get?, find?, names]
  | cons e es ih =>
    rw [get?_cons]
    by_cases he : e.1 = .text k
    · simp [he, names]
    · rw [if_neg he, ih]
      simp [names, Ne.symm he]

theorem mem_of_get? {es : Entries} {k : String} {v : Value} (h : es.get? k = some v) :
    (.text k, v) ∈ es := by
  induction es with
  | nil => cases h
  | cons e es ih =>
    rw [get?_cons] at h
    split at h
    · rename_i he
      obtain rfl := Option.some.inj h
      rw [← he]
      exact .head _
    · exact .tail _ (ih h)

theorem mem_of_find? {es : Entries} {k : Scalar} {v : Value} (h : es.find? k = some v) :
    ∃ e ∈ es, e.2 = v := by
  obtain ⟨e, he, rfl⟩ := Option.map_eq_some_iff.mp h
  exact ⟨e, List.mem_of_find?_eq_some he, rfl⟩

theorem get?_of_mem {es : Entries} (hdistinct : DistinctKeys es.names) {k : String} {v : Value}
    (h : (.text k, v) ∈ es) : es.get? k = some v := by
  induction es with
  | nil => cases h
  | cons e es ih =>
    obtain ⟨hfirst, hrest⟩ := List.pairwise_cons.mp hdistinct
    rw [get?_cons]
    rcases List.mem_cons.mp h with rfl | hmem
    · rw [if_pos rfl]
    · have hother : e.1 ≠ .text k := by
        rw [Ne, ← Scalar.same_text_iff, Bool.not_eq_true]
        exact hfirst (.text k) (List.mem_map_of_mem hmem)
      rw [if_neg hother, ih hrest hmem]

section Merging

variable {m : Merge} {base top es : Entries} {k : String} {v : Value}

theorem get?_putAll (base : Entries) {top : Entries} (h : DistinctKeys top.names) (k : String) :
    (putAll base top).get? k = (top.get? k).or (base.get? k) := by
  induction top generalizing base with
  | nil => rfl
  | cons e top ih =>
    change (putAll (base.put e.1 e.2) top).get? k = _
    rw [ih _ h.of_cons, get?_put, get?_cons]
    by_cases hkey : e.1 = .text k
    · have hnew : DistinctKeys (.text k :: Entries.names top) := hkey ▸ h
      rw [if_pos hkey, if_pos hkey, get?_eq_none_iff.mpr hnew.text_notMem]
      rfl
    · rw [if_neg hkey, if_neg hkey]

theorem distinctKeys_putAll (h : DistinctKeys base.names) (top : Entries) :
    DistinctKeys (putAll base top).names := by
  induction top generalizing base with
  | nil => exact h
  | cons e top ih => exact ih (distinctKeys_putKey _ _ h)

theorem mem_names_putAll {key : Scalar} (h : key ∈ (putAll base top).names) :
    key ∈ base.names ∨ key ∈ top.names := by
  induction top generalizing base with
  | nil => exact .inl h
  | cons e top ih =>
    rcases ih h with hbase | htop
    · rcases mem_names_putKey hbase with rfl | hbase
      · exact .inr (.head _)
      · exact .inl hbase
    · exact .inr (.tail _ htop)

theorem of_mem_putAll {e : Scalar × Value} (h : e ∈ putAll base top) :
    ∃ e' ∈ base ++ top, e.2 = e'.2 := by
  induction top generalizing base with
  | nil =>
    have he : e ∈ base := h
    exact ⟨e, by simpa using he, rfl⟩
  | cons f top ih =>
    obtain ⟨e', he', heq⟩ := ih h
    rcases List.mem_append.mp he' with hbase | htop
    · rcases mem_putKey hbase with hvalue | hbase
      · exact ⟨f, by simp, heq.trans hvalue⟩
      · exact ⟨e', by simp [hbase], heq⟩
    · exact ⟨e', by simp [htop], heq⟩

theorem combine_cons_iff {key : Scalar} {rest : Entries} :
    combine m base ((key, v) :: rest) = .ok es ↔ ∃ merged others,
      m.onto (base.find? key) v = .ok merged ∧ combine m base rest = .ok others ∧
        es = (key, merged) :: others := by
  rw [combine]
  cases m.onto (base.find? key) v with
  | error f => simp [Except.bind]
  | ok merged => cases combine m base rest <;> simp [Except.bind, Except.map, eq_comm]

theorem names_combine (h : combine m base top = .ok es) : es.names = top.names := by
  induction top generalizing es with
  | nil =>
    cases h
    rfl
  | cons e top ih =>
    obtain ⟨merged, others, -, hothers, rfl⟩ := combine_cons_iff.mp h
    exact congrArg (e.1 :: ·) (ih hothers)

theorem get?_combine (h : combine m base top = .ok es) (hk : top.get? k = some v) :
    ∃ merged, m.onto (base.get? k) v = .ok merged ∧ es.get? k = some merged := by
  induction top generalizing es with
  | nil => cases hk
  | cons e top ih =>
    obtain ⟨merged, others, hmerged, hothers, rfl⟩ := combine_cons_iff.mp h
    rw [get?_cons] at hk
    by_cases hkey : e.1 = .text k
    · rw [if_pos hkey] at hk
      cases hk
      rw [hkey] at hmerged
      exact ⟨merged, hmerged, by rw [get?_cons, if_pos hkey]⟩
    · rw [if_neg hkey] at hk
      obtain ⟨other, hother, hget⟩ := ih hothers hk
      exact ⟨other, hother, by rw [get?_cons, if_neg hkey, hget]⟩

theorem of_mem_combine {e : Scalar × Value} (h : combine m base top = .ok es) (he : e ∈ es) :
    ∃ v, (e.1, v) ∈ top ∧ m.onto (base.find? e.1) v = .ok e.2 := by
  induction top generalizing es with
  | nil =>
    cases h
    cases he
  | cons f top ih =>
    obtain ⟨merged, others, hmerged, hothers, rfl⟩ := combine_cons_iff.mp h
    rcases List.mem_cons.mp he with rfl | he
    · exact ⟨f.2, .head _, hmerged⟩
    · obtain ⟨v, hv, honto⟩ := ih hothers he
      exact ⟨v, .tail _ hv, honto⟩

theorem combine_error_iff {R : Value → Value → Prop}
    (hm : ∀ a b f, m a b = .error f ↔ f = .tooDeep ∧ R a b) {f : Fault} :
    combine m base top = .error f ↔ f = .tooDeep ∧
      ∃ e ∈ top, ∃ old, base.find? e.1 = some old ∧ R old e.2 := by
  induction top with
  | nil => simp [combine]
  | cons e top ih =>
    cases honto : m.onto (base.find? e.1) e.2 with
    | error g =>
      have hfirst : combine m base (e :: top) = .error g := by
        rw [combine, honto]
        rfl
      cases hold : base.find? e.1 with
      | none =>
        rw [hold] at honto
        cases honto
      | some old =>
        rw [hold] at honto
        obtain ⟨rfl, hmeet⟩ := (hm old e.2 g).mp honto
        rw [hfirst, Except.error.injEq, eq_comm]
        exact (and_iff_left ⟨e, .head _, old, hold, hmeet⟩).symm
    | ok merged =>
      have hrest : combine m base (e :: top) = .error f ↔ combine m base top = .error f := by
        rw [combine, honto]
        cases combine m base top <;> simp [Except.bind, Except.map]
      have hhead : ¬∃ old, base.find? e.1 = some old ∧ R old e.2 := by
        rintro ⟨old, hold, hmeet⟩
        rw [hold] at honto
        cases honto.symm.trans ((hm _ _ _).mpr ⟨rfl, hmeet⟩)
      rw [hrest, ih, List.exists_mem_cons_iff, or_iff_right hhead]

theorem combine_mono {m' : Merge} (hm : ∀ a b w, m a b = .ok w → m' a b = .ok w)
    (h : combine m base top = .ok es) : combine m' base top = .ok es := by
  induction top generalizing es with
  | nil => exact h
  | cons e top ih =>
    obtain ⟨merged, others, hmerged, hothers, rfl⟩ := combine_cons_iff.mp h
    refine combine_cons_iff.mpr ⟨merged, others, ?_, ih hothers, rfl⟩
    cases hold : base.find? e.1 with
    | none => rwa [hold] at hmerged
    | some old =>
      rw [hold] at hmerged
      exact hm old e.2 merged hmerged

theorem mergeBy_ok_iff : mergeBy m base top = .ok es ↔
    ∃ changed, combine m base top = .ok changed ∧ putAll base changed = es := by
  unfold mergeBy
  cases combine m base top <;> simp [Except.map]

theorem mergeBy_error_iff {f : Fault} :
    mergeBy m base top = .error f ↔ combine m base top = .error f := by
  unfold mergeBy
  cases combine m base top <;> simp [Except.map]

section Merged

variable (h : mergeBy m base top = .ok es)

include h

theorem distinctKeys_mergeBy (hbase : DistinctKeys base.names) : DistinctKeys es.names := by
  obtain ⟨changed, -, rfl⟩ := mergeBy_ok_iff.mp h
  exact distinctKeys_putAll hbase changed

theorem mem_names_mergeBy {key : Scalar} (hkey : key ∈ es.names) :
    key ∈ base.names ∨ key ∈ top.names := by
  obtain ⟨changed, hchanged, rfl⟩ := mergeBy_ok_iff.mp h
  rw [← names_combine hchanged]
  exact mem_names_putAll hkey

theorem forall_mem_mergeBy {P : Value → Prop} (hbase : ∀ e ∈ base, P e.2) (htop : ∀ e ∈ top, P e.2)
    (hm : ∀ a b w, P a → P b → m a b = .ok w → P w) : ∀ e ∈ es, P e.2 := by
  intro e he
  obtain ⟨changed, hchanged, rfl⟩ := mergeBy_ok_iff.mp h
  obtain ⟨e', he', heq⟩ := of_mem_putAll he
  rw [heq]
  rcases List.mem_append.mp he' with he' | he'
  · exact hbase e' he'
  · obtain ⟨v, hv, honto⟩ := of_mem_combine hchanged he'
    cases hold : base.find? e'.1 with
    | none =>
      rw [hold] at honto
      cases honto
      exact htop e' hv
    | some old =>
      rw [hold] at honto
      obtain ⟨f, hf, rfl⟩ := mem_of_find? hold
      exact hm f.2 v e'.2 (hbase f hf) (htop _ hv) honto

variable (htop : DistinctKeys top.names)

include htop

theorem get?_mergeBy_of_none (hk : top.get? k = none) : es.get? k = base.get? k := by
  obtain ⟨changed, hchanged, rfl⟩ := mergeBy_ok_iff.mp h
  have hnames := names_combine hchanged
  rw [get?_eq_none_iff, ← hnames, ← get?_eq_none_iff] at hk
  rw [get?_putAll base (hnames ▸ htop), hk, Option.none_or]

theorem get?_mergeBy_of_some (hk : top.get? k = some v) :
    ∃ merged, m.onto (base.get? k) v = .ok merged ∧ es.get? k = some merged := by
  obtain ⟨changed, hchanged, rfl⟩ := mergeBy_ok_iff.mp h
  obtain ⟨merged, hmerged, hget⟩ := get?_combine hchanged hk
  refine ⟨merged, hmerged, ?_⟩
  rw [get?_putAll base ((names_combine hchanged) ▸ htop), hget, Option.some_or]

end Merged

end Merging

end Entries

section Closing

variable (w : Value) (d : Nat)

theorem closedItems_eq_map (items : List Value) :
    Value.closedItems w d items = items.map (Value.closed w d) := by
  induction items with
  | nil => rfl
  | cons v items ih => simp [Value.closedItems, ih]

theorem closedEntries_eq_map (es : Entries) :
    Value.closedEntries w d es = es.map fun e => (e.1, Value.closed w d e.2) := by
  induction es with
  | nil => rfl
  | cons e es ih => simp [Value.closedEntries, ih]

theorem names_closedEntries (es : Entries) :
    Entries.names (Value.closedEntries w d es) = es.names := by
  simp [closedEntries_eq_map, Entries.names]

theorem get?_closedEntries (es : Entries) (k : String) :
    Entries.get? (Value.closedEntries w d es) k = (es.get? k).map (Value.closed w d) := by
  induction es with
  | nil => rfl
  | cons e es ih =>
    rw [Value.closedEntries, Entries.get?_cons, Entries.get?_cons, ih]
    split <;> rfl

end Closing

/-- No key occurs twice, neither here nor in a map directly below. -/
def Entries.WellKeyed (es : Entries) : Prop :=
  DistinctKeys es.names ∧ ∀ e ∈ es, ∀ inner, e.2 = .map inner → DistinctKeys (Entries.names inner)

theorem Entries.WellKeyed.entries? {es closed : Entries} (h : es.WellKeyed)
    (hclosed : (Value.map es).entries? = some closed) : closed.WellKeyed := by
  cases Option.some.inj hclosed
  refine ⟨by simpa [names_closedEntries] using h.1, ?_⟩
  rw [closedEntries_eq_map]
  intro e he inner hinner
  obtain ⟨⟨k, v⟩, hmem, rfl⟩ := List.mem_map.mp he
  cases v with
  | map below =>
    cases hinner
    rw [names_closedEntries]
    exact h.2 _ hmem below rfl
  | back levels isList =>
    simp only [Value.closed] at hinner
    split at hinner
    · cases hinner
      exact h.1
    · cases hinner
  | _ => cases hinner

section Levels

variable {n : Nat} {a b w : Value} {as bs base top es : Entries}

theorem Value.entries?_eq_some_iff : a.entries? = some es ↔
    ∃ inner, a = .map inner ∧ es = Value.closedEntries a 0 inner := by
  cases a <;> simp [Value.entries?, eq_comm]

theorem Value.merge_zero (ha : a.entries? = some as) (hb : b.entries? = some bs) :
    Value.merge 0 a b = .error .tooDeep := by
  simp [Value.merge, ha, hb]

theorem Value.merge_succ (ha : a.entries? = some as) (hb : b.entries? = some bs) :
    Value.merge (n + 1) a b = (Entries.merge n as bs).map .map := by
  simp [Value.merge, ha, hb, Entries.merge]

def Value.BothMaps (a b : Value) : Prop :=
  (∃ as, a.entries? = some as) ∧ ∃ bs, b.entries? = some bs

theorem Value.merge_of_not_map (h : ¬a.BothMaps b) : Value.merge n a b = .ok b := by
  unfold Value.merge
  split
  · rename_i as bs ha hb
    exact absurd ⟨⟨as, ha⟩, bs, hb⟩ h
  · rfl

theorem Value.merge_ok (h : Value.merge n a b = .ok w) :
    (¬a.BothMaps b ∧ w = b) ∨
      ∃ k as bs es, n = k + 1 ∧ a.entries? = some as ∧ b.entries? = some bs ∧
        Entries.merge k as bs = .ok es ∧ w = .map es := by
  by_cases hmaps : a.BothMaps b
  · obtain ⟨⟨as, ha⟩, bs, hb⟩ := hmaps
    cases n with
    | zero => cases (merge_zero ha hb).symm.trans h
    | succ k =>
      rw [merge_succ ha hb] at h
      cases hes : Entries.merge k as bs with
      | error f =>
        rw [hes] at h
        cases h
      | ok es =>
        rw [hes] at h
        cases h
        exact .inr ⟨k, as, bs, es, rfl, ha, hb, hes, rfl⟩
  · rw [merge_of_not_map hmaps] at h
    cases h
    exact .inl ⟨hmaps, rfl⟩

/-- Two values are maps, and so are those under a key of both, and so on for a number of levels.
Ways back are followed. -/
inductive Value.Meet : Nat → Value → Value → Prop
  | maps {a b : Value} {as bs : Entries} (ha : a.entries? = some as) (hb : b.entries? = some bs) :
      Value.Meet 0 a b
  | under {n : Nat} {a b old v : Value} {as bs : Entries} {k : Scalar} (ha : a.entries? = some as)
      (hb : b.entries? = some bs) (hv : (k, v) ∈ bs) (hold : as.find? k = some old)
      (h : Value.Meet n old v) : Value.Meet (n + 1) a b

def Entries.Meet (n : Nat) (base top : Entries) : Prop :=
  ∃ e ∈ top, ∃ old, base.find? e.1 = some old ∧ old.Meet n e.2

theorem Value.Meet.bothMaps (h : a.Meet n b) : a.BothMaps b := by
  cases h with
  | maps ha hb => exact ⟨⟨_, ha⟩, _, hb⟩
  | under ha hb => exact ⟨⟨_, ha⟩, _, hb⟩

theorem Value.merge_error_iff {f : Fault} :
    Value.merge n a b = .error f ↔ f = .tooDeep ∧ a.Meet n b := by
  induction n generalizing a b f with
  | zero =>
    by_cases hmaps : a.BothMaps b
    · obtain ⟨⟨as, ha⟩, bs, hb⟩ := hmaps
      rw [merge_zero ha hb, Except.error.injEq, eq_comm]
      exact (and_iff_left (.maps ha hb)).symm
    · rw [merge_of_not_map hmaps]
      exact iff_of_false (by simp) fun h => hmaps h.2.bothMaps
  | succ n ih =>
    by_cases hmaps : a.BothMaps b
    · obtain ⟨⟨as, ha⟩, bs, hb⟩ := hmaps
      have hmap : Value.merge (n + 1) a b = .error f ↔ Entries.merge n as bs = .error f := by
        rw [merge_succ ha hb]
        cases Entries.merge n as bs <;> simp [Except.map]
      rw [hmap, Entries.merge, Entries.mergeBy_error_iff, Entries.combine_error_iff fun _ _ _ => ih]
      refine and_congr_right fun _ => ⟨?_, ?_⟩
      · rintro ⟨e, he, old, hold, hmeet⟩
        exact .under ha hb he hold hmeet
      · rintro (_ | ⟨ha', hb', hv, hold, hmeet⟩)
        cases ha.symm.trans ha'
        cases hb.symm.trans hb'
        exact ⟨_, hv, _, hold, hmeet⟩
    · rw [merge_of_not_map hmaps]
      exact iff_of_false (by simp) fun h => hmaps h.2.bothMaps

theorem Entries.merge_error_iff {f : Fault} :
    Entries.merge n base top = .error f ↔ f = .tooDeep ∧ Entries.Meet n base top := by
  rw [Entries.merge, mergeBy_error_iff, combine_error_iff fun _ _ _ => Value.merge_error_iff]
  rfl

theorem Value.meet_self {k : Scalar} (ha : a.entries? = some as) (hmem : (k, a) ∈ as)
    (hfind : as.find? k = some a) (n : Nat) : a.Meet n a := by
  induction n with
  | zero => exact .maps ha ha
  | succ n ih => exact .under ha ha hmem hfind ih

example (n : Nat) :
    (Value.map [(.text "a", .back 0 false)]).Meet n (.map [(.text "a", .back 0 false)]) :=
  Value.meet_self rfl (.head _) rfl n

/-- Maps stand at most so deep one inside the other, and no key leads back to one of them. -/
inductive Value.Within : Nat → Value → Prop
  | map {n : Nat} {es : Entries} (inside : ∀ e ∈ es, Value.Within n e.2) :
      Value.Within (n + 1) (.map es)
  | plain {n : Nat} {v : Value} (hmap : ∀ es, v ≠ .map es) (hback : ∀ l b, v ≠ .back l b) :
      Value.Within n v

theorem Value.Within.closed (h : a.Within n) (w : Value) (d : Nat) :
    (Value.closed w d a).Within n := by
  induction h generalizing d with
  | map inside ih =>
    refine .map fun e he => ?_
    rw [closedEntries_eq_map] at he
    obtain ⟨e', he', rfl⟩ := List.mem_map.mp he
    exact ih e' he' (d + 1)
  | @plain n v hmap hback =>
    cases v with
    | map es => exact absurd rfl (hmap es)
    | back l b => exact absurd rfl (hback l b)
    | _ => exact .plain (by simp [Value.closed]) (by simp [Value.closed])

theorem Value.Within.mono {k : Nat} (h : a.Within k) (hle : k ≤ n) : a.Within n := by
  induction h generalizing n with
  | map inside ih =>
    obtain ⟨n, rfl⟩ : ∃ m, n = m + 1 := ⟨n - 1, by omega⟩
    exact .map fun e he => ih e he (by omega)
  | plain hmap hback => exact .plain hmap hback

theorem Value.Within.of_mem_entries? (h : a.Within (n + 1)) (ha : a.entries? = some as)
    {e : Scalar × Value} (he : e ∈ as) : e.2.Within n := by
  obtain ⟨inner, rfl, rfl⟩ := entries?_eq_some_iff.mp ha
  cases h with
  | map inside =>
    rw [closedEntries_eq_map] at he
    obtain ⟨e', he', rfl⟩ := List.mem_map.mp he
    exact (inside e' he').closed _ _
  | plain hmap => exact absurd rfl (hmap inner)

theorem Value.Within.entries?_of_zero (h : a.Within 0) : a.entries? = none := by
  cases h with
  | plain hmap =>
    cases a with
    | map es => exact absurd rfl (hmap es)
    | _ => rfl

theorem Value.Within.not_meet (h : b.Within n) : ¬a.Meet n b := by
  intro hmeet
  induction hmeet with
  | maps ha hb => cases h.entries?_of_zero.symm.trans hb
  | under ha hb hv hold hmeet ih => exact ih (h.of_mem_entries? hb hv)

theorem Entries.exists_merge (h : ∀ e ∈ top, e.2.Within n) (base : Entries) :
    ∃ es, Entries.merge n base top = .ok es := by
  cases hmerge : Entries.merge n base top with
  | ok es => exact ⟨es, rfl⟩
  | error f =>
    obtain ⟨-, e, he, old, -, hmeet⟩ := merge_error_iff.mp hmerge
    exact absurd hmeet (h e he).not_meet

theorem Value.Within.merge {levels : Nat} (ha : a.Within n) (hb : b.Within n)
    (h : Value.merge levels a b = .ok w) : w.Within n := by
  induction levels generalizing n a b w with
  | zero =>
    obtain ⟨-, rfl⟩ | ⟨k, as, bs, es, hk, -⟩ := merge_ok h
    · exact hb
    · cases hk
  | succ levels ih =>
    obtain ⟨-, rfl⟩ | ⟨k, as, bs, es, hk, has, hbs, hes, rfl⟩ := merge_ok h
    · exact hb
    cases hk
    cases n with
    | zero => cases hb.entries?_of_zero.symm.trans hbs
    | succ n =>
      refine .map (Entries.forall_mem_mergeBy hes ?_ ?_ fun _ _ _ ha hb => ih ha hb)
      · exact fun e he => ha.of_mem_entries? has he
      · exact fun e he => hb.of_mem_entries? hbs he

theorem Entries.within_merge {levels : Nat} (hbase : ∀ e ∈ base, e.2.Within n)
    (htop : ∀ e ∈ top, e.2.Within n) (h : Entries.merge levels base top = .ok es) :
    ∀ e ∈ es, e.2.Within n :=
  Entries.forall_mem_mergeBy h hbase htop fun _ _ _ ha hb => ha.merge hb

theorem Value.merge_mono {k : Nat} (hle : k ≤ n) (h : Value.merge k a b = .ok w) :
    Value.merge n a b = .ok w := by
  induction k generalizing n a b w with
  | zero =>
    obtain ⟨hmaps, rfl⟩ | ⟨k, as, bs, es, hk, -⟩ := merge_ok h
    · exact merge_of_not_map hmaps
    · cases hk
  | succ k ih =>
    obtain ⟨hmaps, rfl⟩ | ⟨k', as, bs, es, hk, has, hbs, hes, rfl⟩ := merge_ok h
    · exact merge_of_not_map hmaps
    cases hk
    obtain ⟨n, rfl⟩ : ∃ m, n = m + 1 := ⟨n - 1, by omega⟩
    obtain ⟨changed, hchanged, rfl⟩ := Entries.mergeBy_ok_iff.mp hes
    have hchanged := Entries.combine_mono (fun _ _ _ => ih (n := n) (by omega)) hchanged
    rw [merge_succ has hbs, Entries.merge, Entries.mergeBy_ok_iff.mpr ⟨changed, hchanged, rfl⟩]
    rfl

end Levels

/-- Entries that hold nothing but sections, each of them a map. -/
def Entries.OnlySections (es : Entries) : Prop :=
  ∀ e ∈ es, ∃ name ∈ Settings.sections, ∃ inner, e = (.text name, .map inner)

structure Entries.Sectioned (es : Entries) : Prop where
  names_mem : ∀ k ∈ es.names, ∃ name ∈ Settings.sections, k = .text name
  isMap : ∀ name v, es.get? name = some v → ∃ inner, v = .map inner ∧
    DistinctKeys (Entries.names inner)
  distinct : DistinctKeys es.names

def Entries.leaf (es : Entries) (sec key : String) : Option Value :=
  match es.get? sec with
  | some (.map inner) => Entries.get? inner key
  | _ => none

def givenIn (es : Entries) (sec key : String) : Option Value :=
  ((es.get? sec).bind Value.entries?).bind fun inner => inner.get? key

namespace Entries

theorem Sectioned.nil : Sectioned [] where
  names_mem := by rintro k ⟨⟩
  isMap := by rintro name v ⟨⟩
  distinct := List.Pairwise.nil

theorem Sectioned.cons {es inner : Entries} (hes : es.Sectioned) {name : String}
    (hname : name ∈ Settings.sections) (hnew : .text name ∉ es.names)
    (hinner : DistinctKeys inner.names) : Sectioned ((.text name, .map inner) :: es) where
  names_mem := List.forall_mem_cons.mpr ⟨⟨name, hname, rfl⟩, hes.names_mem⟩
  isMap other v hv := by
    rw [get?_cons] at hv
    split at hv
    · cases hv
      exact ⟨inner, rfl, hinner⟩
    · exact hes.isMap other v hv
  distinct := by
    refine List.pairwise_cons.mpr ⟨fun k hk => ?_, hes.distinct⟩
    rw [← Bool.not_eq_true, Scalar.text_same_iff]
    rintro rfl
    exact hnew hk

theorem OnlySections.sectioned {es : Entries} (honly : es.OnlySections) (hkeyed : es.WellKeyed) :
    es.Sectioned where
  names_mem k hk := by
    obtain ⟨e, he, rfl⟩ := List.mem_map.mp hk
    obtain ⟨name, hname, inner, rfl⟩ := honly e he
    exact ⟨name, hname, rfl⟩
  isMap name v hv := by
    have hmem := mem_of_get? hv
    obtain ⟨name, -, inner, heq⟩ := honly _ hmem
    cases heq
    exact ⟨inner, rfl, hkeyed.2 _ hmem inner rfl⟩
  distinct := hkeyed.1

theorem leaf_cons (name : String) (inner es : Entries) (sec key : String) :
    leaf ((.text name, .map inner) :: es) sec key =
      if name = sec then inner.get? key else es.leaf sec key := by
  unfold leaf
  rw [get?_cons]
  by_cases hname : name = sec <;> simp [hname]

section Merge

variable {n : Nat} {base top es : Entries} (h : Entries.merge n base top = .ok es)

include h

theorem get?_merge_maps (htop : DistinctKeys top.names) {name : String} {b t : Entries}
    (hb : base.get? name = some (.map b)) (ht : top.get? name = some (.map t)) :
    ∃ k inner, es.get? name = some (.map inner) ∧
      Entries.merge k (Value.closedEntries (.map b) 0 b) (Value.closedEntries (.map t) 0 t) =
        .ok inner := by
  obtain ⟨merged, hmerged, hget⟩ := get?_mergeBy_of_some h htop ht
  rw [hb] at hmerged
  obtain ⟨hmaps, -⟩ | ⟨k, as, bs, inner, -, has, hbs, hinner, rfl⟩ := Value.merge_ok hmerged
  · exact absurd ⟨⟨_, rfl⟩, _, rfl⟩ hmaps
  · cases has
    cases hbs
    exact ⟨k, inner, hget, hinner⟩

theorem Sectioned.merge (hbase : base.Sectioned) (htop : top.Sectioned) : es.Sectioned where
  names_mem k hk := (mem_names_mergeBy h hk).elim (hbase.names_mem k) (htop.names_mem k)
  isMap name v hv := by
    cases ht : top.get? name with
    | none => exact hbase.isMap name v (get?_mergeBy_of_none h htop.distinct ht ▸ hv)
    | some t =>
      obtain ⟨t, rfl, -⟩ := htop.isMap name t ht
      cases hb : base.get? name with
      | none =>
        obtain ⟨merged, hmerged, hget⟩ := get?_mergeBy_of_some h htop.distinct ht
        rw [hb] at hmerged
        cases hmerged
        exact htop.isMap name v (ht.trans (hget.symm.trans hv))
      | some b =>
        obtain ⟨b, rfl, hdistinct⟩ := hbase.isMap name b hb
        obtain ⟨k, inner, hget, hinner⟩ := get?_merge_maps h htop.distinct hb ht
        cases hget.symm.trans hv
        refine ⟨inner, rfl, distinctKeys_mergeBy hinner ?_⟩
        rwa [names_closedEntries]
  distinct := distinctKeys_mergeBy h hbase.distinct

end Merge

end Entries

end SourceOutline
