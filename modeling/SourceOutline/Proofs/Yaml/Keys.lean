import SourceOutline.Proofs.Settings.Merge

/-! No mapping of a document holds a key twice. Making nodes and merging mappings leave alone what
is filled; a collection is filled once, and the entries of a mapping are put in one after
another. -/
namespace SourceOutline

namespace Yaml

theorem exists_of_bind_eq_ok {α β : Type} {x : Make α} {f : α → Make β} {b b'' : Build} {c : β}
    (h : (x >>= f) b = .ok (c, b'')) : ∃ a b', x b = .ok (a, b') ∧ f a b' = .ok (c, b'') := by
  change (x b).bind (fun r => f r.1 r.2) = .ok (c, b'') at h
  cases hr : x b with
  | error e => simp [hr, Except.bind] at h
  | ok r =>
    rw [hr] at h
    exact ⟨r.1, r.2, rfl, h⟩

theorem get_bind_apply {α : Type} (f : Build → Make α) (b : Build) : (get >>= f) b = f b b := rfl

/-- An action leaves the filled collections alone, and what it returns has a property. -/
def Yields {α : Type} (x : Make α) (P : α → Prop) : Prop :=
  ∀ b a b', x b = .ok (a, b') → b'.filled = b.filled ∧ P a

section Yields

variable {α β : Type} {P : α → Prop} {Q : β → Prop}

theorem yields_pure {a : α} (h : P a) : Yields (pure a) P := by
  rintro b _ _ ⟨⟩
  exact ⟨rfl, h⟩

theorem yields_refuse {e : YamlError} : Yields (refuse e) P := by
  rintro b a b' ⟨⟩

theorem yields_bind {x : Make α} {f : α → Make β} (hx : Yields x P)
    (hf : ∀ a, P a → Yields (f a) Q) : Yields (x >>= f) Q := by
  intro b c b'' h
  obtain ⟨a, b', ha, hc⟩ := exists_of_bind_eq_ok h
  obtain ⟨hfilled, ha⟩ := hx b a b' ha
  obtain ⟨hfilled', hc⟩ := hf a ha b' c b'' hc
  exact ⟨hfilled'.trans hfilled, hc⟩

theorem yields_get : Yields get fun _ => True := by
  rintro b _ _ ⟨⟩
  exact ⟨rfl, trivial⟩

theorem yields_modify {f : Build → Build} (h : ∀ b, (f b).filled = b.filled) :
    Yields (modify f) fun _ => True := by
  rintro b _ _ ⟨⟩
  exact ⟨h b, trivial⟩

theorem yields_nodeOf (n : Nat) : Yields (nodeOf n) fun _ => True :=
  yields_bind yields_get fun _ _ => yields_pure trivial

end Yields

theorem yields_make (n : Nat) : Yields (make n) fun _ => True := by
  intro b a b' h
  refine ⟨?_, trivial⟩
  rw [make, get_bind_apply] at h
  cases hmade : b.made.lookup n with
  | some m =>
    simp only [hmade] at h
    cases h
    rfl
  | none =>
    simp only [hmade] at h
    cases hcollection : isCollection (b.graph.node n).tag with
    | true =>
      simp only [hcollection, if_true] at h
      cases h
      rfl
    | false =>
      simp only [hcollection, Bool.false_eq_true, if_false] at h
      cases hscalar : makeScalar b.graph n with
      | error e =>
        simp only [hscalar] at h
        cases h
      | ok s =>
        simp only [hscalar] at h
        cases h
        rfl

theorem yields_makeAll (ns : List Nat) : Yields (makeAll ns) fun _ => True := by
  induction ns with
  | nil => exact yields_pure trivial
  | cons n ns ih =>
    unfold makeAll
    exact yields_bind (yields_make n) fun _ _ => yields_bind ih fun _ _ => yields_pure trivial

theorem yields_flatten (fuel : Nat) :
    (∀ n, Yields (flatten fuel n) fun _ => True) ∧
      (∀ n index merged, Yields (flattenFrom fuel n index merged) fun _ => True) ∧
      ∀ ns, Yields (flattenAll fuel ns) fun _ => True := by
  induction fuel with
  | zero =>
    refine ⟨fun n => ?_, fun n index merged => ?_, fun ns => ?_⟩
    · unfold flatten
      exact yields_refuse
    · unfold flattenFrom
      exact yields_refuse
    · unfold flattenAll
      exact yields_refuse
  | succ fuel ih =>
    obtain ⟨hflatten, hfrom, hall⟩ := ih
    refine ⟨fun n => ?_, fun n index merged => ?_, fun ns => ?_⟩
    · unfold flatten
      exact yields_bind (hfrom n 0 []) fun _ _ => yields_modify fun _ => rfl
    · unfold flattenFrom
      refine yields_bind yields_get fun b _ => ?_
      dsimp only
      split
      · exact yields_pure trivial
      · refine yields_bind (yields_nodeOf _) fun node _ => ?_
        split
        · refine yields_bind (yields_modify fun _ => rfl) fun _ _ =>
            yields_bind (yields_nodeOf _) fun _ _ => ?_
          split
          · exact yields_bind (hflatten _) fun _ _ => yields_bind yields_get fun _ _ => hfrom _ _ _
          · exact yields_bind (hall _) fun _ _ => hfrom _ _ _
          · exact yields_refuse
        · exact yields_bind (yields_modify fun _ => rfl) fun _ _ => hfrom _ _ _
        · exact hfrom _ _ _
    · cases ns with
      | nil =>
        unfold flattenAll
        exact yields_pure trivial
      | cons n ns =>
        unfold flattenAll
        refine yields_bind (yields_nodeOf n) fun node _ => ?_
        split
        · refine yields_bind (hflatten n) fun _ _ => yields_bind yields_get fun _ _ => ?_
          exact yields_bind (hall ns) fun _ _ => yields_pure trivial
        · exact yields_refuse

theorem yields_makeEntries (done : List (Scalar × Made)) (hdone : DistinctKeys (done.map (·.1)))
    (es : List (Nat × Nat)) :
    Yields (makeEntries done es) fun made => DistinctKeys (made.map (·.1)) := by
  induction es generalizing done with
  | nil => exact yields_pure hdone
  | cons e es ih =>
    obtain ⟨k, v⟩ := e
    unfold makeEntries
    refine yields_bind (yields_make k) fun m _ => ?_
    cases m with
    | collection id => exact yields_refuse
    | scalar key =>
      exact yields_bind (yields_make v) fun _ _ => ih _ (distinctKeys_putKey _ _ hdone)

theorem yields_fillMapping (n : Nat) :
    Yields (fillMapping n) fun made => DistinctKeys (made.map (·.1)) := by
  unfold fillMapping
  refine yields_bind (yields_nodeOf n) fun node _ => ?_
  split
  · refine yields_bind yields_get fun b _ => yields_bind ((yields_flatten _).1 n) fun _ _ => ?_
    exact yields_bind yields_get fun _ _ => yields_makeEntries [] List.Pairwise.nil _
  · exact yields_refuse

theorem yields_makePairs (ns : List Nat) : Yields (makePairs ns) fun _ => True := by
  induction ns with
  | nil => exact yields_pure trivial
  | cons n ns ih =>
    unfold makePairs
    refine yields_bind (yields_nodeOf n) fun node _ => ?_
    split
    · refine yields_bind (yields_make _) fun _ _ => yields_bind (yields_make _) fun _ _ => ?_
      exact yields_bind ih fun _ _ => yields_pure trivial
    · exact yields_refuse

theorem yields_itemsOf (n : Nat) : Yields (itemsOf n) fun _ => True := by
  unfold itemsOf
  refine yields_bind (yields_nodeOf n) fun node _ => ?_
  split
  · exact yields_pure trivial
  · exact yields_refuse

def Filling.Keyed : Filling → Prop
  | .map es => DistinctKeys (es.map (·.1))
  | _ => True

theorem yields_fillingOf (n : Nat) : Yields (fillingOf n) Filling.Keyed := by
  unfold fillingOf
  refine yields_bind (yields_nodeOf n) fun node _ => ?_
  split
  · refine yields_bind (yields_itemsOf n) fun items _ => ?_
    exact yields_bind (yields_makeAll items) fun _ _ => yields_pure trivial
  · exact yields_bind (yields_fillMapping n) fun _ h => yields_pure h
  · exact yields_bind (yields_fillMapping n) fun _ _ => yields_pure trivial
  · refine yields_bind (yields_itemsOf n) fun items _ => ?_
    exact yields_bind (yields_makePairs items) fun _ _ => yields_pure trivial

theorem keyed_fillAll {fuel : Nat} {b b' : Build} {u : Unit} (h : fillAll fuel b = .ok (u, b'))
    (hb : ∀ e ∈ b.filled, e.2.Keyed) : ∀ e ∈ b'.filled, e.2.Keyed := by
  induction fuel generalizing b with
  | zero =>
    cases h
    exact hb
  | succ fuel ih =>
    rw [fillAll, get_bind_apply] at h
    cases hwaiting : b.waiting with
    | nil =>
      simp only [hwaiting] at h
      cases h
      exact hb
    | cons n rest =>
      simp only [hwaiting] at h
      obtain ⟨_, b₁, hmodify, h⟩ := exists_of_bind_eq_ok h
      cases hmodify
      obtain ⟨filling, b₂, hfilling, h⟩ := exists_of_bind_eq_ok h
      obtain ⟨_, b₃, hmodify, h⟩ := exists_of_bind_eq_ok h
      cases hmodify
      obtain ⟨hfilled, hkeyed⟩ := yields_fillingOf n _ _ _ hfilling
      apply ih h
      intro e he
      rcases List.mem_cons.mp he with rfl | he
      · exact hkeyed
      · rw [hfilled] at he
        exact hb e he

section Values

variable {filled : List (Nat × Filling)} (hfilled : ∀ e ∈ filled, e.2.Keyed) {fuel : Nat}
  {around : List (Option Nat)}
  {m : Made} {es : Entries}

theorem exists_of_valueOf_eq_map (h : valueOf filled fuel around m = .map es) :
    ∃ id entries fuel' around', filled.lookup id = some (.map entries) ∧
      es = entries.map fun e => (e.1, valueOf filled fuel' around' e.2) := by
  cases m with
  | scalar s => cases fuel <;> cases h
  | collection id =>
    cases fuel with
    | zero => cases h
    | succ fuel =>
      unfold valueOf at h
      dsimp only at h
      split at h <;> try cases h
      rename_i entries _ hlookup
      exact ⟨id, entries, fuel, some id :: around, hlookup, rfl⟩

include hfilled

theorem distinctKeys_of_valueOf_eq_map (h : valueOf filled fuel around m = .map es) :
    DistinctKeys es.names := by
  obtain ⟨id, entries, fuel', around', hlookup, rfl⟩ := exists_of_valueOf_eq_map h
  obtain ⟨before, after, heq, -⟩ := List.lookup_eq_some_iff.mp hlookup
  have hkeyed : DistinctKeys (entries.map (·.1)) := hfilled (id, .map entries) (by simp [heq])
  simpa [Entries.names, Function.comp_def] using hkeyed

theorem wellKeyed_of_valueOf_eq_map (h : valueOf filled fuel around m = .map es) :
    es.WellKeyed := by
  refine ⟨distinctKeys_of_valueOf_eq_map hfilled h, ?_⟩
  obtain ⟨id, entries, fuel', around', -, rfl⟩ := exists_of_valueOf_eq_map h
  intro e he inner hinner
  obtain ⟨e, -, rfl⟩ := List.mem_map.mp he
  exact distinctKeys_of_valueOf_eq_map hfilled hinner

end Values

theorem wellKeyed_of_value {d : Document} {es : Entries} (h : d.value = .ok (.map es)) :
    es.WellKeyed := by
  let start : Build := ⟨d.graph, [], [], []⟩
  change ((make d.root >>= fun m => fillAll (d.graph.size + 1) >>= fun _ => pure m) start).bind
    (fun r => .ok (valueOf r.2.filled (d.graph.size + 1) [] r.1)) = .ok (.map es) at h
  cases hrun : (make d.root >>= fun m => fillAll (d.graph.size + 1) >>= fun _ => pure m) start with
  | error e =>
    rw [hrun] at h
    cases h
  | ok r =>
    obtain ⟨m, b⟩ := r
    rw [hrun] at h
    obtain ⟨root, b₁, hroot, hrest⟩ := exists_of_bind_eq_ok hrun
    obtain ⟨_, b₂, hfill, hlast⟩ := exists_of_bind_eq_ok hrest
    cases hlast
    have hstart : ∀ e ∈ b₁.filled, e.2.Keyed := by
      rw [(yields_make d.root start _ b₁ hroot).1]
      intro e he
      cases he
    exact wellKeyed_of_valueOf_eq_map (keyed_fillAll hfill hstart) (Except.ok.inj h)

theorem wellKeyed_of_read {s : String} {cut : Option Fault} {es : Entries}
    (h : read s cut = .ok (.map es)) : es.WellKeyed := by
  unfold read at h
  cases hdocument : (TokenStream.ofText (unifyBreaks s.toList) cut).document with
  | error e => simp [hdocument, Except.bind] at h
  | ok d =>
    rw [hdocument] at h
    exact wellKeyed_of_value h

end Yaml

namespace SettingsFile

theorem wellKeyed_of_entriesOf {f : SettingsFile} {document : Except Yaml.YamlError Value}
    {es : Entries} (hdocument : ∀ es : Entries, document = .ok (.map es) → es.WellKeyed)
    (h : f.entriesOf document = .ok es) : es.WellKeyed := by
  unfold entriesOf at h
  split at h
  · cases h
  · cases h
  · rename_i v
    split at h
    · rename_i closed hclosed
      cases h
      cases v with
      | map es => exact (hdocument es rfl).entries? hclosed
      | _ => cases hclosed
    · split at h
      · cases h
        exact ⟨List.Pairwise.nil, fun e he => by cases he⟩
      · cases h

theorem wellKeyed_of_read {f : SettingsFile} {es : Entries} (h : f.read = .ok es) :
    es.WellKeyed := by
  unfold read at h
  split at h
  · cases h
    exact ⟨List.Pairwise.nil, fun e he => by cases he⟩
  · cases h
  · exact wellKeyed_of_entriesOf (fun _ => Yaml.wellKeyed_of_read) h
  · exact wellKeyed_of_entriesOf (fun _ => Yaml.wellKeyed_of_read) h

end SettingsFile

end SourceOutline
