import SourceOutline.Proofs.Settings.Merge

/-! Merging by paths of keys. What a merge has at the end of a path is decided there: by the higher
map where it has something, and otherwise by the lower one, unless the path runs through a value of
the higher map that is no map. Keys keep their order, new ones come last, and a second merge with
the same map finds everything in place. -/
namespace SourceOutline

/-- A map with its entries; a way back to a map around it is none. -/
def Value.isMap : Value → Bool
  | .map _ => true
  | _ => false

/-- The value at the end of a path of keys; the empty path ends at the value itself. -/
def Value.at? : Value → List String → Option Value
  | v, [] => some v
  | .map es, key :: path => (Entries.get? es key).bind (·.at? path)
  | _, _ :: _ => none

def Entries.at? (es : Entries) (path : List String) : Option Value := (Value.map es).at? path

def Value.Whole (v : Value) : Prop := ∀ w d, Value.closed w d v = v

/-- All keys are texts, no key occurs twice and nothing leads back, here and in all maps below. -/
inductive Entries.Nested : Entries → Prop
  | intro {es : Entries} (texts : ∀ k ∈ es.names, ∃ name, k = .text name)
      (distinct : DistinctKeys es.names) (whole : ∀ e ∈ es, e.2.Whole)
      (inside : ∀ e ∈ es, ∀ inner, e.2 = .map inner → Entries.Nested inner) : Entries.Nested es

structure Value.WellNested (v : Value) : Prop where
  whole : v.Whole
  nested : ∀ es : Entries, v = .map es → es.Nested

/-- The path leads through a value that is no map. -/
def Value.Blocks (v : Value) (path : List String) : Prop :=
  ∃ before, before <+: path ∧ before ≠ path ∧ ∃ w, v.at? before = some w ∧ w.isMap = false

theorem closedEntries_of_whole {es : Entries} (h : ∀ e ∈ es, e.2.Whole) (w : Value) (d : Nat) :
    Value.closedEntries w d es = es := by
  rw [closedEntries_eq_map]
  conv_rhs => rw [← List.map_id es]
  refine List.map_congr_left fun e he => ?_
  rw [h e he w d]
  rfl

theorem Value.whole_map {es : Entries} (h : ∀ e ∈ es, e.2.Whole) : (Value.map es).Whole := by
  intro w d
  rw [Value.closed, closedEntries_of_whole h]

theorem Value.not_whole_back (levels : Nat) (isList : Bool) :
    ¬(Value.back levels isList).Whole := by
  intro h
  have hnull := h .null levels
  simp [Value.closed] at hnull

namespace Entries

variable {es : Entries}

theorem Nested.texts (h : es.Nested) : ∀ k ∈ es.names, ∃ name, k = .text name := by
  cases h with
  | intro texts _ _ _ => exact texts

theorem Nested.distinct (h : es.Nested) : DistinctKeys es.names := by
  cases h with
  | intro _ distinct _ _ => exact distinct

theorem Nested.wellNested_of_mem (h : es.Nested) {e : Scalar × Value} (he : e ∈ es) :
    e.2.WellNested := by
  cases h with
  | intro _ _ whole inside => exact ⟨whole e he, inside e he⟩

theorem Nested.of_forall (texts : ∀ k ∈ es.names, ∃ name, k = .text name)
    (distinct : DistinctKeys es.names) (h : ∀ e ∈ es, e.2.WellNested) : es.Nested :=
  ⟨texts, distinct, fun e he => (h e he).whole, fun e he => (h e he).nested⟩

theorem Nested.wellNested (h : es.Nested) {key : String} {v : Value} (hv : es.get? key = some v) :
    v.WellNested := h.wellNested_of_mem (mem_of_get? hv)

theorem Nested.wellNested_map (h : es.Nested) : (Value.map es).WellNested := by
  refine ⟨Value.whole_map fun _ he => (h.wellNested_of_mem he).whole, ?_⟩
  rintro _ ⟨⟩
  exact h

theorem Nested.entries? (h : es.Nested) : (Value.map es).entries? = some es :=
  congrArg some (closedEntries_of_whole (fun _ he => (h.wellNested_of_mem he).whole) _ _)

theorem Nested.nil : Nested [] := .of_forall (by rintro k ⟨⟩) .nil (by rintro e ⟨⟩)

theorem Nested.cons (hes : es.Nested) (name : String) (hnew : .text name ∉ es.names) {v : Value}
    (hv : v.WellNested) : Nested ((.text name, v) :: es) := by
  refine .of_forall (List.forall_mem_cons.mpr ⟨⟨name, rfl⟩, hes.texts⟩) ?_
    (List.forall_mem_cons.mpr ⟨hv, fun e he => hes.wellNested_of_mem he⟩)
  refine List.pairwise_cons.mpr ⟨fun k hk => ?_, hes.distinct⟩
  rw [← Bool.not_eq_true, Scalar.text_same_iff]
  rintro rfl
  exact hnew hk

end Entries

section Merging

theorem Value.map_or_not (v : Value) : (∃ es : Entries, v = .map es) ∨ v.isMap = false := by
  cases v with
  | map es => exact .inl ⟨es, rfl⟩
  | _ => exact .inr rfl

theorem Value.not_entries? {v : Value} (h : v.isMap = false) : ¬∃ es, v.entries? = some es := by
  rintro ⟨es, hes⟩
  obtain ⟨inner, rfl, -⟩ := entries?_eq_some_iff.mp hes
  cases h

theorem Value.merge_of_isMap {n : Nat} {base top : Value}
    (h : base.isMap = false ∨ top.isMap = false) : Value.merge n base top = .ok top :=
  merge_of_not_map fun hmaps => h.elim (not_entries? · hmaps.1) (not_entries? · hmaps.2)

theorem Value.merge_maps {n : Nat} {bs ts : Entries} {w : Value} (hbs : bs.Nested) (hts : ts.Nested)
    (h : Value.merge n (.map bs) (.map ts) = .ok w) :
    ∃ k es, n = k + 1 ∧ Entries.merge k bs ts = .ok es ∧ w = .map es := by
  obtain ⟨hmaps, -⟩ | ⟨k, as, cs, es, rfl, has, hcs, hes, rfl⟩ := merge_ok h
  · exact absurd ⟨⟨_, hbs.entries?⟩, _, hts.entries?⟩ hmaps
  · cases hbs.entries?.symm.trans has
    cases hts.entries?.symm.trans hcs
    exact ⟨k, es, rfl, hes, rfl⟩

theorem Value.at?_of_not_map {v : Value} (h : v.isMap = false) (key : String) (path : List String) :
    v.at? (key :: path) = none := by
  cases v with
  | map es => cases h
  | _ => rfl

theorem Value.not_blocks_nil (v : Value) : ¬v.Blocks [] := by
  rintro ⟨before, hprefix, hne, -⟩
  exact hne (List.prefix_nil.mp hprefix)

theorem Value.blocks_of_not_map {v : Value} (h : v.isMap = false) (key : String)
    (path : List String) : v.Blocks (key :: path) :=
  ⟨[], List.nil_prefix, by simp, v, rfl, h⟩

theorem Value.blocks_map_iff {es : Entries} {key : String} {path : List String} :
    (Value.map es).Blocks (key :: path) ↔ ∃ v, es.get? key = some v ∧ v.Blocks path := by
  constructor
  · rintro ⟨before, hprefix, hne, w, hw, hleaf⟩
    cases before with
    | nil =>
      cases hw
      cases hleaf
    | cons key' before =>
      obtain ⟨rfl, hrest⟩ := List.cons_prefix_cons.mp hprefix
      obtain ⟨v, hv, hw⟩ := Option.bind_eq_some_iff.mp hw
      exact ⟨v, hv, before, hrest, fun heq => hne (by rw [heq]), w, hw, hleaf⟩
  · rintro ⟨v, hv, before, hprefix, hne, w, hw, hleaf⟩
    refine ⟨key :: before, List.cons_prefix_cons.mpr ⟨rfl, hprefix⟩, by simpa using hne, w, ?_,
      hleaf⟩
    exact Option.bind_eq_some_iff.mpr ⟨v, hv, hw⟩

theorem Value.at?_of_blocks {v : Value} {path : List String} (h : v.Blocks path) :
    v.at? path = none := by
  induction path generalizing v with
  | nil => exact absurd h v.not_blocks_nil
  | cons key path ih =>
    cases v with
    | map es =>
      obtain ⟨w, hw, hblocks⟩ := blocks_map_iff.mp h
      change (Entries.get? es key).bind (·.at? path) = none
      rw [hw]
      exact ih hblocks
    | _ => rfl

/-- What a merge has at the end of a path, from what the lower and the higher map have there. -/
structure Overlays (n : Nat) (base top merged : Option Value) : Prop where
  below : top = none → merged = base
  above : ∀ t, top = some t → ∃ v, Merge.onto (Value.merge n) base t = .ok v ∧ merged = some v

theorem Overlays.onto_none (n : Nat) (top : Option Value) : Overlays n none top top :=
  ⟨id, fun t ht => ⟨t, rfl, ht⟩⟩

theorem Overlays.mono {k n : Nat} (hle : k ≤ n) {base top merged : Option Value}
    (h : Overlays k base top merged) : Overlays n base top merged := by
  refine ⟨h.below, fun t ht => ?_⟩
  obtain ⟨v, hv, hmerged⟩ := h.above t ht
  refine ⟨v, ?_, hmerged⟩
  cases base with
  | none => exact hv
  | some b => exact Value.merge_mono hle hv

theorem Overlays.eq_of_not_both {n : Nat} {base top merged : Option Value} {t : Value}
    (h : Overlays n base top merged) (ht : top = some t)
    (hmaps : ∀ b, base = some b → b.isMap = false ∨ t.isMap = false) : merged = some t := by
  obtain ⟨v, hv, hmerged⟩ := h.above t ht
  cases base with
  | none =>
    cases hv
    exact hmerged
  | some b =>
    cases (Value.merge_of_isMap (hmaps b rfl)).symm.trans hv
    exact hmerged

theorem Value.at?_merge {n : Nat} {base top w : Value} (hbase : base.WellNested)
    (htop : top.WellNested) (h : Value.merge n base top = .ok w) {path : List String}
    (hfree : ¬top.Blocks path) : Overlays n (base.at? path) (top.at? path) (w.at? path) := by
  induction path generalizing n base top w with
  | nil =>
    refine ⟨fun hnone => (by cases hnone), ?_⟩
    rintro t ⟨⟩
    exact ⟨w, h, rfl⟩
  | cons key path ih =>
    rcases top.map_or_not with ⟨ts, rfl⟩ | htopMap
    · rcases base.map_or_not with ⟨bs, rfl⟩ | hbaseMap
      · have hbs := hbase.nested bs rfl
        have hts := htop.nested ts rfl
        obtain ⟨k, es, rfl, hes, rfl⟩ := merge_maps hbs hts h
        change Overlays (k + 1) ((bs.get? key).bind (·.at? path)) ((ts.get? key).bind (·.at? path))
          ((es.get? key).bind (·.at? path))
        cases ht : ts.get? key with
        | none =>
          rw [Entries.get?_mergeBy_of_none hes hts.distinct ht]
          exact ⟨fun _ => rfl, fun t hend => (by cases hend)⟩
        | some t =>
          obtain ⟨merged, hmerged, hget⟩ := Entries.get?_mergeBy_of_some hes hts.distinct ht
          rw [hget]
          cases hb : bs.get? key with
          | none =>
            rw [hb] at hmerged
            cases hmerged
            exact .onto_none _ _
          | some b =>
            rw [hb] at hmerged
            have hend := ih (hbs.wellNested hb) (hts.wellNested ht) hmerged fun hblocks =>
              hfree (blocks_map_iff.mpr ⟨t, ht, hblocks⟩)
            exact hend.mono (Nat.le_succ k)
      · cases (merge_of_isMap (.inl hbaseMap)).symm.trans h
        rw [at?_of_not_map hbaseMap]
        exact .onto_none _ _
    · exact absurd (blocks_of_not_map htopMap key path) hfree

theorem Value.at?_merge_of_blocks {n : Nat} {base top w : Value} (hbase : base.WellNested)
    (htop : top.WellNested) (h : Value.merge n base top = .ok w) {path : List String}
    (hblocks : top.Blocks path) : w.at? path = none := by
  induction path generalizing n base top w with
  | nil => exact absurd hblocks top.not_blocks_nil
  | cons key path ih =>
    rcases top.map_or_not with ⟨ts, rfl⟩ | htopMap
    · rcases base.map_or_not with ⟨bs, rfl⟩ | hbaseMap
      · have hbs := hbase.nested bs rfl
        have hts := htop.nested ts rfl
        obtain ⟨k, es, rfl, hes, rfl⟩ := merge_maps hbs hts h
        obtain ⟨t, ht, hrest⟩ := blocks_map_iff.mp hblocks
        obtain ⟨merged, hmerged, hget⟩ := Entries.get?_mergeBy_of_some hes hts.distinct ht
        change (es.get? key).bind (·.at? path) = none
        rw [hget]
        cases hb : bs.get? key with
        | none =>
          rw [hb] at hmerged
          cases hmerged
          exact at?_of_blocks hrest
        | some b =>
          rw [hb] at hmerged
          exact ih (hbs.wellNested hb) (hts.wellNested ht) hmerged hrest
      · cases (merge_of_isMap (.inl hbaseMap)).symm.trans h
        exact at?_of_blocks hblocks
    · cases (merge_of_isMap (.inr htopMap)).symm.trans h
      exact at?_of_not_map htopMap key path

end Merging

namespace Entries

variable {n : Nat} {base top es : Entries}

theorem mem_names_iff {es : Entries} {name : String} :
    .text name ∈ es.names ↔ (es.get? name).isSome := by
  rw [← not_iff_not, ← get?_eq_none_iff, Option.not_isSome_iff_eq_none]

theorem names_put_of_mem {es : Entries} {name : String} (h : .text name ∈ es.names) (v : Value) :
    (es.put (.text name) v).names = es.names := by
  rcases names_putKey (.text name) v es with hnames | ⟨hnone, -⟩
  · exact hnames
  · obtain ⟨e, he, hkey⟩ := List.mem_map.mp h
    have hother := hnone e he
    rw [← Bool.not_eq_true, Scalar.same_text_iff] at hother
    exact absurd hkey hother

theorem names_put_of_notMem {es : Entries} {name : String} (h : .text name ∉ es.names) (v : Value) :
    (es.put (.text name) v).names = es.names ++ [.text name] := by
  rcases names_putKey (.text name) v es with hnames | ⟨-, hnames⟩
  · change (es.put (.text name) v).names = es.names at hnames
    have hmem : .text name ∈ (es.put (.text name) v).names := by
      rw [mem_names_iff, get?_put, if_pos rfl]
      rfl
    rw [hnames] at hmem
    exact absurd hmem h
  · exact hnames

theorem names_putAll (base : Entries) {top : Entries}
    (htexts : ∀ k ∈ top.names, ∃ name, k = .text name) (hdistinct : DistinctKeys top.names) :
    (putAll base top).names = base.names ++ top.names.filter fun k => decide (k ∉ base.names) := by
  induction top generalizing base with
  | nil => exact (List.append_nil _).symm
  | cons e top ih =>
    obtain ⟨key, v⟩ := e
    obtain ⟨⟨name, rfl⟩, hothers⟩ := List.forall_mem_cons.mp htexts
    change DistinctKeys (.text name :: Entries.names top) at hdistinct
    change (putAll (base.put _ _) top).names =
      base.names ++ (.text name :: Entries.names top).filter _
    rw [ih _ hothers hdistinct.of_cons]
    by_cases hmem : .text name ∈ base.names
    · rw [names_put_of_mem hmem, List.filter_cons_of_neg (by simpa using hmem)]
    · have hfilter :
          (Entries.names top).filter (fun k => decide (k ∉ base.names ++ [.text name])) =
            (Entries.names top).filter fun k => decide (k ∉ base.names) := by
        refine List.filter_congr fun k hk => ?_
        have hne : k ≠ .text name := fun heq => hdistinct.text_notMem (heq ▸ hk)
        simp [hne]
      rw [names_put_of_notMem hmem, hfilter, List.filter_cons_of_pos (by simpa using hmem),
        List.append_assoc]
      rfl

theorem Nested.names_merge (htop : top.Nested) (h : Entries.merge n base top = .ok es) :
    es.names = base.names ++ top.names.filter fun k => decide (k ∉ base.names) := by
  obtain ⟨changed, hchanged, rfl⟩ := mergeBy_ok_iff.mp h
  have hnames := names_combine hchanged
  rw [names_putAll base (hnames ▸ htop.texts) (hnames ▸ htop.distinct), hnames]

theorem eq_of_get?_eq {es fs : Entries} (htexts : ∀ k ∈ es.names, ∃ name, k = .text name)
    (hdistinct : DistinctKeys es.names) (hnames : es.names = fs.names)
    (hget : ∀ name, es.get? name = fs.get? name) : es = fs := by
  induction es generalizing fs with
  | nil => exact (List.map_eq_nil_iff.mp hnames.symm).symm
  | cons e es ih =>
    cases fs with
    | nil => cases hnames
    | cons f fs =>
      obtain ⟨key, v⟩ := e
      obtain ⟨key', w⟩ := f
      obtain ⟨⟨name, rfl⟩, hothers⟩ := List.forall_mem_cons.mp htexts
      obtain ⟨rfl, hrest⟩ := List.cons.inj hnames
      change Entries.names es = Entries.names fs at hrest
      have hnew : .text name ∉ Entries.names es := hdistinct.text_notMem
      have hvalue : v = w := by simpa [get?_cons] using hget name
      have htail : ∀ other, Entries.get? es other = Entries.get? fs other := by
        intro other
        have hthere := hget other
        rw [get?_cons, get?_cons] at hthere
        by_cases hother : Scalar.text name = .text other
        · obtain rfl := Scalar.text.inj hother
          rw [get?_eq_none_iff.mpr hnew, get?_eq_none_iff.mpr (hrest ▸ hnew)]
        · rwa [if_neg hother, if_neg hother] at hthere
      rw [hvalue, ih hothers hdistinct.of_cons hrest htail]

theorem putAll_of_get? (htexts : ∀ k ∈ base.names, ∃ name, k = .text name)
    (hbase : DistinctKeys base.names) (htops : ∀ k ∈ top.names, ∃ name, k = .text name)
    (htop : DistinctKeys top.names)
    (hthere : ∀ name v, top.get? name = some v → base.get? name = some v) :
    putAll base top = base := by
  have hsubset : ∀ k ∈ top.names, k ∈ base.names := by
    intro k hk
    obtain ⟨name, rfl⟩ := htops k hk
    obtain ⟨v, hv⟩ := Option.isSome_iff_exists.mp (mem_names_iff.mp hk)
    exact mem_names_iff.mpr (Option.isSome_iff_exists.mpr ⟨v, hthere name v hv⟩)
  have hnames : (putAll base top).names = base.names := by
    rw [names_putAll base htops htop, List.filter_eq_nil_iff.mpr, List.append_nil]
    intro k hk
    simpa using hsubset k hk
  refine eq_of_get?_eq (hnames ▸ htexts) (hnames ▸ hbase) hnames fun name => ?_
  rw [get?_putAll base htop]
  cases hname : top.get? name with
  | none => rfl
  | some v => exact (hthere name v hname).symm

theorem combine_eq_self {m : Merge} (h : ∀ e ∈ top, m.onto (base.find? e.1) e.2 = .ok e.2) :
    combine m base top = .ok top := by
  induction top with
  | nil => rfl
  | cons e top ih =>
    obtain ⟨hfirst, hrest⟩ := List.forall_mem_cons.mp h
    exact combine_cons_iff.mpr ⟨e.2, top, hfirst, ih hrest, rfl⟩

theorem combine_of_changed {m : Merge} {base' changed : Entries}
    (h : combine m base top = .ok changed)
    (hagain : ∀ k v u, (k, v) ∈ top → (k, u) ∈ changed → m.onto (base.find? k) v = .ok u →
      m.onto (base'.find? k) v = .ok u) : combine m base' top = .ok changed := by
  induction top generalizing changed with
  | nil => exact h
  | cons e top ih =>
    obtain ⟨merged, others, hmerged, hothers, rfl⟩ := combine_cons_iff.mp h
    refine combine_cons_iff.mpr ⟨merged, others, ?_, ih hothers ?_, rfl⟩
    · exact hagain e.1 e.2 merged (.head _) (.head _) hmerged
    · exact fun k v u hv hu => hagain k v u (.tail _ hv) (.tail _ hu)

theorem Nested.merge_of_values (hbase : base.Nested) (htop : top.Nested)
    (hvalues : ∀ {a b w : Value}, a.WellNested → b.WellNested → Value.merge n a b = .ok w →
      w.WellNested) (h : Entries.merge n base top = .ok es) : es.Nested := by
  refine .of_forall (fun k hk => ?_) (distinctKeys_mergeBy h hbase.distinct) ?_
  · exact (mem_names_mergeBy h hk).elim (hbase.texts k) (htop.texts k)
  · exact forall_mem_mergeBy h (fun _ => hbase.wellNested_of_mem) (fun _ => htop.wellNested_of_mem)
      fun _ _ _ => hvalues

end Entries

namespace Value

variable {n : Nat} {base top w : Value}

theorem WellNested.merge (hbase : base.WellNested) (htop : top.WellNested)
    (h : Value.merge n base top = .ok w) : w.WellNested := by
  induction n generalizing base top w with
  | zero =>
    obtain ⟨-, rfl⟩ | ⟨k, as, bs, es, hk, -⟩ := merge_ok h
    · exact htop
    · cases hk
  | succ n ih =>
    rcases base.map_or_not with ⟨bs, rfl⟩ | hmap
    · rcases top.map_or_not with ⟨ts, rfl⟩ | hmap
      · obtain ⟨k, es, hk, hes, rfl⟩ := merge_maps (hbase.nested bs rfl) (htop.nested ts rfl) h
        cases hk
        exact ((hbase.nested bs rfl).merge_of_values (htop.nested ts rfl) ih hes).wellNested_map
      · cases (merge_of_isMap (.inr hmap)).symm.trans h
        exact htop
    · cases (merge_of_isMap (.inl hmap)).symm.trans h
      exact htop

theorem merge_self (hnested : top.WellNested) (hfit : top.Within n) :
    Value.merge n top top = .ok top := by
  induction hfit with
  | @map n es inside ih =>
    have hes := hnested.nested es rfl
    have hsame : ∀ e ∈ es, Merge.onto (Value.merge n) (es.find? e.1) e.2 = .ok e.2 := by
      intro e he
      obtain ⟨name, hname⟩ := hes.texts e.1 (List.mem_map_of_mem he)
      have hget : es.find? e.1 = some e.2 := by
        rw [hname]
        exact Entries.get?_of_mem hes.distinct (hname ▸ he)
      rw [hget]
      exact ih e he (hes.wellNested_of_mem he)
    have hput := Entries.putAll_of_get? hes.texts hes.distinct hes.texts hes.distinct fun _ _ h => h
    rw [merge_succ hes.entries? hes.entries?, Entries.merge, Entries.mergeBy_ok_iff.mpr
      ⟨es, Entries.combine_eq_self hsame, hput⟩]
    rfl
  | @plain _ v hmap hback =>
    refine merge_of_isMap (.inr ?_)
    rcases v.map_or_not with ⟨es, rfl⟩ | hnot
    · exact absurd rfl (hmap es)
    · exact hnot

end Value

theorem Entries.Nested.merge_again_of_values {n : Nat} {base top es : Entries} (hbase : base.Nested)
    (htop : top.Nested) (hes : es.Nested) (hfit : ∀ e ∈ top, e.2.Within n)
    (hvalues : ∀ {a b w : Value}, a.WellNested → b.WellNested → b.Within n →
      Value.merge n a b = .ok w → Value.merge n w b = .ok w)
    (h : Entries.merge n base top = .ok es) : Entries.merge n es top = .ok es := by
  obtain ⟨changed, hchanged, hput⟩ := mergeBy_ok_iff.mp h
  have hnames := names_combine hchanged
  have hdistinct : DistinctKeys changed.names := hnames ▸ htop.distinct
  have htexts : ∀ k ∈ changed.names, ∃ name, k = .text name := hnames ▸ htop.texts
  have hthere : ∀ name v, changed.get? name = some v → es.get? name = some v := by
    intro name v hv
    rw [← hput, get?_putAll base hdistinct, hv, Option.some_or]
  -- What was merged under a key is merged with the same value again, or put there as it is.
  have hagain : combine (Value.merge n) es top = .ok changed := by
    refine combine_of_changed hchanged fun k v u hv hu honto => ?_
    obtain ⟨name, rfl⟩ := htop.texts k (List.mem_map_of_mem hv)
    have hfind : es.find? (.text name) = some u := hthere name u (get?_of_mem hdistinct hu)
    have hnested := htop.wellNested_of_mem hv
    rw [hfind]
    cases hold : base.find? (.text name) with
    | none =>
      rw [hold] at honto
      cases honto
      exact Value.merge_self hnested (hfit _ hv)
    | some old =>
      rw [hold] at honto
      exact hvalues (hbase.wellNested hold) hnested (hfit _ hv) honto
  exact mergeBy_ok_iff.mpr
    ⟨changed, hagain, putAll_of_get? hes.texts hes.distinct htexts hdistinct hthere⟩

namespace Value

variable {n : Nat} {base top w : Value}

theorem merge_merge (hbase : base.WellNested) (htop : top.WellNested) (hfit : top.Within n)
    (h : Value.merge n base top = .ok w) : Value.merge n w top = .ok w := by
  induction n generalizing base top w with
  | zero =>
    obtain ⟨-, rfl⟩ | ⟨k, as, bs, es, hk, -⟩ := merge_ok h
    · exact merge_self htop hfit
    · cases hk
  | succ n ih =>
    rcases base.map_or_not with ⟨bs, rfl⟩ | hmap
    · rcases top.map_or_not with ⟨ts, rfl⟩ | hmap
      · have hbs := hbase.nested bs rfl
        have hts := htop.nested ts rfl
        have hw := hbase.merge htop h
        obtain ⟨k, es, hk, hes, rfl⟩ := merge_maps hbs hts h
        cases hk
        have hagain := hbs.merge_again_of_values hts (hw.nested es rfl)
          (fun _ => hfit.of_mem_entries? hts.entries?) ih hes
        rw [merge_succ (hw.nested es rfl).entries? hts.entries?, hagain]
        rfl
      · cases (merge_of_isMap (.inr hmap)).symm.trans h
        exact merge_self htop hfit
    · cases (merge_of_isMap (.inl hmap)).symm.trans h
      exact merge_self htop hfit

theorem merge_unique {k : Nat} {w' : Value} (h : Value.merge n base top = .ok w)
    (h' : Value.merge k base top = .ok w') : w = w' :=
  Except.ok.inj
    ((merge_mono (Nat.le_max_left n k) h).symm.trans (merge_mono (Nat.le_max_right n k) h'))

end Value

namespace Entries

variable {n : Nat} {base top es : Entries}

theorem exists_within (h : ∀ e ∈ es, ∃ n, e.2.Within n) : ∃ n, ∀ e ∈ es, e.2.Within n := by
  induction es with
  | nil => exact ⟨0, by rintro e ⟨⟩⟩
  | cons e es ih =>
    obtain ⟨⟨n, hn⟩, hrest⟩ := List.forall_mem_cons.mp h
    obtain ⟨k, hk⟩ := ih hrest
    refine ⟨max n k, List.forall_mem_cons.mpr ⟨hn.mono (Nat.le_max_left n k), fun f hf => ?_⟩⟩
    exact (hk f hf).mono (Nat.le_max_right n k)

theorem Nested.exists_within (h : es.Nested) : ∃ n, ∀ e ∈ es, e.2.Within n := by
  induction h with
  | intro texts distinct whole inside ih =>
    refine Entries.exists_within fun e he => ?_
    rcases e.2.map_or_not with ⟨inner, hmap⟩ | hmap
    · obtain ⟨n, hn⟩ := ih e he inner hmap
      exact ⟨n + 1, hmap ▸ .map hn⟩
    · refine ⟨0, .plain (fun inner heq => ?_) fun l b heq => ?_⟩
      · rw [heq] at hmap
        cases hmap
      · exact Value.not_whole_back l b (heq ▸ whole e he)

theorem Nested.at? (h : es.Nested) {path : List String} {inner : Entries}
    (hend : es.at? path = some (.map inner)) : inner.Nested := by
  induction path generalizing es with
  | nil =>
    cases hend
    exact h
  | cons key path ih =>
    obtain ⟨v, hv, hrest⟩ := Option.bind_eq_some_iff.mp hend
    rcases v.map_or_not with ⟨es', rfl⟩ | hmap
    · exact ih ((h.wellNested hv).nested es' rfl) hrest
    · cases path with
      | nil =>
        cases hrest
        cases hmap
      | cons key' path =>
        rw [Value.at?_of_not_map hmap] at hrest
        cases hrest

theorem merge_map_iff (hbase : base.Nested) (htop : top.Nested) :
    Value.merge (n + 1) (.map base) (.map top) = .ok (.map es) ↔
      Entries.merge n base top = .ok es := by
  rw [Value.merge_succ hbase.entries? htop.entries?]
  cases Entries.merge n base top <;> simp [Except.map]

theorem not_blocks_of_at? {v : Value} {path : List String} (h : top.at? path = some v) :
    ¬(Value.map top).Blocks path := by
  intro hblocks
  cases h.symm.trans (Value.at?_of_blocks hblocks)

end Entries

open Entries in
/-- A merge takes at each path what the higher map has there, with both maps merged where both have
one. Where the higher map has nothing the lower one is kept, unless a value on the way is no map.
The keys of the lower map come first, at every depth, and a second merge changes nothing. There is
one such merge, and every number of levels that suffices for the higher map leads to it. -/
theorem merge_overrides_by_path {base top : Entries} (hbase : base.Nested) (htop : top.Nested) :
    (∃ n, ∀ e ∈ top, e.2.Within n) ∧ ∃ merged : Entries,
      (∀ n, (∀ e ∈ top, e.2.Within n) →
        merge n base top = .ok merged ∧ merge n merged top = .ok merged) ∧
      ∀ path,
        (∀ v : Value, v.isMap = false → top.at? path = some v → merged.at? path = some v) ∧
        (∀ inner : Entries, top.at? path = some (.map inner) →
          (∀ lower : Entries, base.at? path = some (.map lower) →
            ∃ es : Entries, merged.at? path = some (.map es) ∧
              (∀ n, (∀ e ∈ inner, e.2.Within n) → merge n lower inner = .ok es) ∧
              es.names = lower.names ++ inner.names.filter fun k => decide (k ∉ lower.names)) ∧
          ((∀ lower : Entries, base.at? path ≠ some (.map lower)) →
            merged.at? path = some (.map inner))) ∧
        (top.at? path = none →
          (¬(Value.map top).Blocks path → merged.at? path = base.at? path) ∧
          ((Value.map top).Blocks path → merged.at? path = none)) := by
  obtain ⟨n, hn⟩ := htop.exists_within
  obtain ⟨merged, hmerged⟩ := exists_merge hn base
  have hwhole := (merge_map_iff hbase htop).mpr hmerged
  have hnested : merged.Nested :=
    (hbase.wellNested_map.merge htop.wellNested_map hwhole).nested merged rfl
  have hends {path : List String} (hfree : ¬(Value.map top).Blocks path) :=
    Value.at?_merge hbase.wellNested_map htop.wellNested_map hwhole hfree
  refine ⟨⟨n, hn⟩, merged, fun k hk => ?_, fun path =>
    ⟨fun v hv hend => ?_, fun inner hend => ⟨fun lower hlower => ?_, fun hlower => ?_⟩,
      fun hend => ⟨fun hfree => (hends hfree).below hend, fun hblocks => ?_⟩⟩⟩
  · obtain ⟨es, hes⟩ := exists_merge hk base
    cases Value.merge_unique hwhole ((merge_map_iff hbase htop).mpr hes)
    have htwice := Value.merge_merge hbase.wellNested_map htop.wellNested_map (.map hk)
      ((merge_map_iff hbase htop).mpr hes)
    exact ⟨hes, (merge_map_iff hnested htop).mp htwice⟩
  · exact (hends (not_blocks_of_at? hend)).eq_of_not_both hend fun _ _ => .inr hv
  · obtain ⟨u, hu, hthere⟩ := (hends (not_blocks_of_at? hend)).above _ hend
    have hlow : (Value.map base).at? path = some (.map lower) := hlower
    rw [hlow] at hu
    have hlowNested := hbase.at? hlower
    have hinnerNested := htop.at? hend
    obtain ⟨k, es, -, hes, rfl⟩ := Value.merge_maps hlowNested hinnerNested hu
    refine ⟨es, hthere, fun j hj => ?_, hinnerNested.names_merge hes⟩
    obtain ⟨es', hes'⟩ := exists_merge hj lower
    cases Value.merge_unique ((merge_map_iff hlowNested hinnerNested).mpr hes)
      ((merge_map_iff hlowNested hinnerNested).mpr hes')
    exact hes'
  · refine (hends (not_blocks_of_at? hend)).eq_of_not_both hend fun low hlow => ?_
    rcases low.map_or_not with ⟨lower, rfl⟩ | hmap
    · exact absurd hlow (hlower lower)
    · exact .inl hmap
  · exact Value.at?_merge_of_blocks hbase.wellNested_map htop.wellNested_map hwhole hblocks

def lowerMap : Entries :=
  .ofNames [("a", .record [("x", .int 1), ("y", .record [("z", .int 2)])]), ("b", .int 3),
    ("c", .record [("d", .int 4)])]

def higherMap : Entries :=
  .ofNames [("c", .int 5),
    ("a", .record [("y", .record [("w", .int 6), ("z", .int 7)]), ("n", .int 8)]),
    ("b", .record [("e", .int 9)])]

open Entries in
theorem merge_overrides_by_path_clashes : lowerMap.Nested ∧ higherMap.Nested ∧
    (∀ e ∈ higherMap, e.2.Within 2) ∧ ∃ merged : Entries,
      merge 2 lowerMap higherMap = .ok merged ∧ merge 2 merged higherMap = .ok merged ∧
      merged.at? ["a", "y", "z"] = some (.int 7) ∧ merged.at? ["a", "x"] = some (.int 1) ∧
      merged.at? ["b"] = some (.record [("e", .int 9)]) ∧ merged.at? ["c", "d"] = none ∧
      ∃ es : Entries, merged.at? ["a"] = some (.map es) ∧
        es.names = [.text "x", .text "y", .text "n"] := by
  have hint (n : Int) : (Value.int n).WellNested := ⟨fun _ _ => rfl, by rintro es ⟨⟩⟩
  have hone (name : String) {v : Value} (hv : v.WellNested) : Nested [(.text name, v)] :=
    Nested.nil.cons name List.not_mem_nil hv
  have hd := (hone "d" (hint 4)).wellNested_map
  have hz := (hone "z" (hint 2)).wellNested_map
  have hxy := ((hone "y" hz).cons "x" (by decide) (hint 1)).wellNested_map
  have hlower : lowerMap.Nested :=
    ((hone "c" hd).cons "b" (by decide) (hint 3)).cons "a" (by decide) hxy
  have he := (hone "e" (hint 9)).wellNested_map
  have hwz := ((hone "z" (hint 7)).cons "w" (by decide) (hint 6)).wellNested_map
  have hyn := ((hone "n" (hint 8)).cons "y" (by decide) hwz).wellNested_map
  have hhigher : higherMap.Nested :=
    ((hone "b" he).cons "a" (by decide) hyn).cons "c" (by decide) (hint 5)
  have hnumber (k : Nat) (n : Int) : (Value.int n).Within k := .plain (by simp) (by simp)
  have hfit : ∀ e ∈ higherMap, e.2.Within 2 := by
    simp only [higherMap, Entries.ofNames, List.map_cons, List.map_nil, List.forall_mem_cons]
    refine ⟨hnumber _ _, .map ?_, .map ?_, by rintro e ⟨⟩⟩
    · simp only [Entries.ofNames, List.map_cons, List.map_nil, List.forall_mem_cons]
      refine ⟨.map ?_, hnumber _ _, by rintro e ⟨⟩⟩
      simp only [Entries.ofNames, List.map_cons, List.map_nil, List.forall_mem_cons]
      exact ⟨hnumber _ _, hnumber _ _, by rintro e ⟨⟩⟩
    · simp only [Entries.ofNames, List.map_cons, List.map_nil, List.forall_mem_cons]
      exact ⟨hnumber _ _, by rintro e ⟨⟩⟩
  have hfree : ¬(Value.map higherMap).Blocks ["a", "x"] := by
    rw [Value.blocks_map_iff]
    rintro ⟨v, hv, hblocks⟩
    cases hv
    obtain ⟨w, hw, -⟩ := Value.blocks_map_iff.mp hblocks
    cases hw
  have hblocks : (Value.map higherMap).Blocks ["c", "d"] :=
    Value.blocks_map_iff.mpr ⟨_, rfl, Value.blocks_of_not_map rfl "d" []⟩
  obtain ⟨-, merged, hmerges, hpaths⟩ := merge_overrides_by_path hlower hhigher
  obtain ⟨honce, htwice⟩ := hmerges 2 hfit
  refine ⟨hlower, hhigher, hfit, merged, honce, htwice, (hpaths ["a", "y", "z"]).1 _ rfl rfl,
    ((hpaths ["a", "x"]).2.2 rfl).1 hfree, ((hpaths ["b"]).2.1 _ rfl).2 ?_,
    ((hpaths ["c", "d"]).2.2 rfl).2 hblocks, ?_⟩
  · rintro lower ⟨⟩
  · obtain ⟨es, hes, -, hnames⟩ := ((hpaths ["a"]).2.1 _ rfl).1 _ rfl
    exact ⟨es, hes, hnames.trans (by decide)⟩

end SourceOutline
