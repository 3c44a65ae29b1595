import Mathlib
import SourceOutline.Proofs.Settings.Merge
import SourceOutline.Proofs.Text.Case

/-! Settings in environment variables. When no variable holds a whole section or leads deeper than
to a key, a key of a section holds what the last variable says whose name, in lower case, is that of
the section and the key. -/
namespace SourceOutline

theorem afterStart?_eq_some_iff {start cs rest : List Char} :
    afterStart? start cs = some rest ↔ cs = start ++ rest := by
  fun_induction afterStart? start cs with
  | case1 cs => simp
  | case2 => simp
  | case3 a start c cs heq ih =>
    cases beq_iff_eq.mp heq
    simp [ih]
  | case4 a start c cs hne =>
    have hca : c ≠ a := fun heq => hne (by simp [heq])
    simp [hca]

theorem afterStart?_toList_iff {start name key : String} :
    afterStart? start.toList name.toList = some key.toList ↔ name = start ++ key := by
  rw [afterStart?_eq_some_iff, ← String.toList_append, String.toList_inj]

theorem cutAround_eq_singleton {separator cs : List Char} (h : Text.occursIn separator cs = false)
    (fuel : Nat) (piece : List Char) :
    cutAround separator fuel piece cs = [piece.reverse ++ cs] := by
  induction cs generalizing fuel piece with
  | nil => cases fuel <;> simp [cutAround]
  | cons c cs ih =>
    cases fuel with
    | zero => rfl
    | succ fuel =>
      simp only [Text.occursIn, Bool.or_eq_false_iff] at h
      have hnone : afterStart? separator (c :: cs) = none := by
        rw [Option.eq_none_iff_forall_ne_some]
        intro rest hrest
        rw [afterStart?_eq_some_iff.mp hrest,
          List.isPrefixOf_iff_prefix.mpr (List.prefix_append _ _)] at h
        cases h.1
      unfold cutAround
      rw [hnone]
      simp only [ih h.2, List.reverse_cons, List.append_assoc, List.singleton_append]

namespace Environment

def fieldName (sec key : String) : String := "codeoutline__" ++ sec ++ "__" ++ key

/-- What the variable with a name in lower case says; of several spellings the last counts. -/
def textOf? (env : Environment) (name : String) : Option String :=
  (env.reverse.find? fun e => Text.lower e.1 == name).map (·.2)

/-- Each variable is one for a key of a section or has nothing to do with sections: none holds a
section as a whole, and no key is cut further. -/
def Plain (env : Environment) : Prop :=
  ∀ e ∈ env, ∀ sec ∈ Settings.sections, Text.lower e.1 ≠ "codeoutline__" ++ sec ∧
    ∀ key, Text.lower e.1 = fieldName sec key → Text.contains key "__" = false

theorem forall_key_iff {name start : String} :
    (∀ key, name = start ++ key → Text.contains key "__" = false) ↔
    ∀ rest ∈ afterStart? start.toList name.toList, Text.occursIn "__".toList rest = false := by
  constructor
  · intro h rest hrest
    obtain ⟨key, rfl⟩ : ∃ key : String, key.toList = rest :=
      ⟨String.ofList rest, String.toList_ofList⟩
    exact h key (afterStart?_toList_iff.mp hrest)
  · rintro h key rfl
    exact h key.toList (afterStart?_toList_iff.mpr rfl)

instance (env : Environment) : Decidable env.Plain :=
  decidable_of_iff (∀ e ∈ env, ∀ sec ∈ Settings.sections, Text.lower e.1 ≠ "codeoutline__" ++ sec ∧
    ∀ rest ∈ afterStart? ("codeoutline__" ++ sec ++ "__").toList (Text.lower e.1).toList,
      Text.occursIn "__".toList rest = false) (by simp only [Plain, fieldName, forall_key_iff])

def fieldValue (sec : Section) (key text : String) : Except EnvironmentError Value :=
  if isJsonField sec [key] text then jsonOf sec text else .ok (.text text)

section Normal

theorem lookup_assign (n v : String) (env : Environment) (m : String) :
    (assign n v env).lookup m = if m == n then some v else env.lookup m := by
  induction env with
  | nil => cases hmn : m == n <;> simp [assign, List.lookup_cons, hmn]
  | cons e env ih =>
    obtain ⟨k, w⟩ := e
    unfold assign
    split
    · rename_i hkn
      cases beq_iff_eq.mp hkn
      cases hmn : m == n <;> simp [List.lookup_cons, hmn]
    · rename_i hkn
      rw [List.lookup_cons, List.lookup_cons, ih]
      cases hmk : m == k with
      | false => rfl
      | true =>
        cases beq_iff_eq.mp hmk
        simp [hkn]

theorem mem_assign {n v : String} {env : Environment} {e : String × String}
    (h : e ∈ assign n v env) : e.1 = n ∨ e ∈ env := by
  induction env with
  | nil => exact .inl (by simp_all [assign])
  | cons d env ih =>
    unfold assign at h
    split at h
    · rename_i hd
      rcases List.mem_cons.mp h with rfl | h
      · exact .inl (beq_iff_eq.mp hd)
      · exact .inr (.tail _ h)
    · rcases List.mem_cons.mp h with rfl | h
      · exact .inr (.head _)
      · exact (ih h).imp_right (.tail _)

theorem nodup_assign {n v : String} {env : Environment} (h : (env.map (·.1)).Nodup) :
    ((assign n v env).map (·.1)).Nodup := by
  induction env with
  | nil => simp [assign]
  | cons d env ih =>
    unfold assign
    split
    · exact h
    · rename_i hd
      obtain ⟨hfirst, hrest⟩ := List.nodup_cons.mp h
      refine List.nodup_cons.mpr ⟨fun hmem => ?_, ih hrest⟩
      obtain ⟨e, he, heq⟩ := List.mem_map.mp hmem
      rcases mem_assign he with hn | he
      · exact hd (by simp [← hn, heq])
      · exact hfirst (heq ▸ List.mem_map_of_mem he)

variable (env : Environment)

theorem normal_append (e : String × String) :
    normal .standard (env ++ [e]) = assign (Text.lower e.1) e.2 (normal .standard env) := by
  simp [normal, EnvironmentRules.standard, spelling]

theorem lookup_normal (name : String) : (normal .standard env).lookup name = env.textOf? name := by
  induction env using List.reverseRecOn with
  | nil => rfl
  | append_singleton env e ih =>
    rw [normal_append, lookup_assign, ih, textOf?, textOf?, List.reverse_append,
      List.reverse_singleton, List.singleton_append, List.find?_cons]
    by_cases hname : name = Text.lower e.1
    · simp [hname]
    · have hother : (Text.lower e.1 == name) = false := by simpa using Ne.symm hname
      simp [hname, hother]

theorem nodup_normal : ((normal .standard env).map (·.1)).Nodup := by
  induction env using List.reverseRecOn with
  | nil => exact List.nodup_nil
  | append_singleton env e ih =>
    rw [normal_append]
    exact nodup_assign ih

theorem exists_of_mem_normal {e : String × String} (h : e ∈ normal .standard env) :
    ∃ given ∈ env, e.1 = Text.lower given.1 := by
  induction env using List.reverseRecOn with
  | nil => cases h
  | append_singleton env d ih =>
    rw [normal_append] at h
    rcases mem_assign h with heq | hmem
    · exact ⟨d, by simp, heq⟩
    · obtain ⟨given, hgiven, heq⟩ := ih hmem
      exact ⟨given, List.mem_append_left _ hgiven, heq⟩

end Normal

theorem lookup_of_mem {env : Environment} (hnodup : (env.map (·.1)).Nodup) {e : String × String}
    (he : e ∈ env) : env.lookup e.1 = some e.2 := by
  obtain ⟨before, after, rfl⟩ := List.append_of_mem he
  refine List.lookup_eq_some_iff.mpr ⟨before, after, rfl, fun d hd => bne_iff_ne.mpr ?_⟩
  rw [List.map_append, List.nodup_append] at hnodup
  exact (hnodup.2.2 d.1 (List.mem_map_of_mem hd) e.1 (by simp)).symm

theorem name_mem_sections : ∀ sec ∈ Section.all, sec.name ∈ Settings.sections := by decide

theorem sectionName_standard {sec : Section} (hsec : sec ∈ Section.all) :
    sectionName .standard sec = "codeoutline__" ++ sec.name := by
  have hall : ∀ sec ∈ Section.all, sectionName .standard sec = "codeoutline__" ++ sec.name := by
    decide +kernel
  exact hall sec hsec

theorem keys_of_not_contains {key : String} (h : Text.contains key "__" = false) :
    limitKeys .standard
      ((cutAround EnvironmentRules.standard.separator.toList (key.toList.length + 1) []
      key.toList).map String.ofList) = [key] := by
  have hcut : cutAround EnvironmentRules.standard.separator.toList (key.toList.length + 1) []
      key.toList = [key.toList] :=
    cutAround_eq_singleton h _ _
  rw [hcut]
  simp [limitKeys, EnvironmentRules.standard]

theorem keysIn?_standard {sec : Section} (hsec : sec ∈ Section.all) {name : String}
    (hplain : ∀ key, name = fieldName sec.name key → Text.contains key "__" = false)
    (keys : List String) :
    keysIn? .standard sec name = some keys ↔ ∃ key, name = fieldName sec.name key ∧
      keys = [key] := by
  have hstart : ∀ key : String,
      afterStart? (sectionName .standard sec ++ EnvironmentRules.standard.separator).toList
      name.toList = some key.toList ↔ name = fieldName sec.name key := by
    intro key
    rw [afterStart?_toList_iff, sectionName_standard hsec]
    rfl
  unfold keysIn?
  rw [if_neg (by decide), Option.map_eq_some_iff]
  constructor
  · rintro ⟨cs, hcs, rfl⟩
    obtain ⟨key, rfl⟩ : ∃ key : String, key.toList = cs := ⟨String.ofList cs, String.toList_ofList⟩
    have hname := (hstart key).mp hcs
    exact ⟨key, hname, keys_of_not_contains (hplain key hname)⟩
  · rintro ⟨key, hname, rfl⟩
    exact ⟨key.toList, (hstart key).mpr hname, keys_of_not_contains (hplain key hname)⟩

theorem fieldName_inj {sec key key' : String} :
    fieldName sec key = fieldName sec key' ↔ key = key' := by
  constructor
  · intro h
    have hlists := congrArg String.toList h
    simp only [fieldName, String.toList_append] at hlists
    exact String.toList_inj.mp (List.append_cancel_left hlists)
  · rintro rfl
    rfl

theorem fieldValue_eq (sec : Section) (key text : String) :
    (if isJsonField sec [key] text && EnvironmentRules.standard.nullText != some text then
      jsonOf sec text else .ok (valueOf .standard text)) = fieldValue sec key text := by
  simp [fieldValue, EnvironmentRules.standard, valueOf]

theorem exists_valuesOf {sec : Section} (hsec : sec ∈ Section.all) {env : Environment}
    (hnodup : (env.map (·.1)).Nodup)
    (hplain : ∀ e ∈ env, ∀ key, e.1 = fieldName sec.name key → Text.contains key "__" = false)
    (hreads : ∀ e ∈ env, ∀ key, e.1 = fieldName sec.name key → ∃ v, fieldValue sec key e.2 = .ok v ∧
      v.Within 0) (done :
      Entries) (hdone : DistinctKeys done.names) (hflat : ∀ e ∈ done, e.2.Within 0) :
    ∃ es, valuesOf .standard sec env done = .ok es ∧ DistinctKeys es.names ∧
      (∀ e ∈ es, e.2.Within 0) ∧
      (∀ k ∈ es.names, k ∈ done.names ∨ ∃ e ∈ env, ∃ key, e.1 = fieldName sec.name key ∧
        k = .text key) ∧
      ∀ key, es.get? key = match env.lookup (fieldName sec.name key) with
        | some text => (fieldValue sec key text).toOption
        | none => done.get? key := by
  induction env generalizing done with
  | nil => exact ⟨done, rfl, hdone, hflat, fun k hk => .inl hk, fun key => rfl⟩
  | cons e env ih =>
    obtain ⟨name, text⟩ := e
    obtain ⟨hfirst, hothers⟩ := List.nodup_cons.mp hnodup
    obtain ⟨hplainFirst, hplainRest⟩ := List.forall_mem_cons.mp hplain
    obtain ⟨hreadsFirst, hreadsRest⟩ := List.forall_mem_cons.mp hreads
    have hkeys := keysIn?_standard hsec hplainFirst
    unfold valuesOf
    cases hkeysIn : keysIn? .standard sec name with
    | none =>
      obtain ⟨es, hes, hdistinct, hinside, hnames, hget⟩ :=
        ih hothers hplainRest hreadsRest done hdone hflat
      refine ⟨es, hes, hdistinct, hinside, fun k hk => ?_, fun key => ?_⟩
      · exact (hnames k hk).imp_right fun ⟨e, he, rest⟩ => ⟨e, .tail _ he, rest⟩
      · have hne : (fieldName sec.name key == name) = false := by
          rw [beq_eq_false_iff_ne]
          rintro rfl
          cases hkeysIn.symm.trans ((hkeys [key]).mpr ⟨key, rfl, rfl⟩)
        rw [hget, List.lookup_cons, hne]
    | some keys =>
      obtain ⟨key₀, rfl, rfl⟩ := (hkeys keys).mp hkeysIn
      obtain ⟨v, hv, hplain⟩ := hreadsFirst key₀ rfl
      have hput : ∀ e ∈ done.put (.text key₀) v, e.2.Within 0 := by
        intro e he
        rcases mem_putKey he with heq | he
        · exact heq ▸ hplain
        · exact hflat e he
      obtain ⟨es, hes, hdistinct, hinside, hnames, hget⟩ := ih hothers hplainRest hreadsRest
        (done.put (.text key₀) v) (distinctKeys_putKey _ _ hdone) hput
      refine ⟨es, ?_, hdistinct, hinside, fun k hk => ?_, fun key => ?_⟩
      · dsimp only
        rw [fieldValue_eq, hv]
        exact hes
      · rcases hnames k hk with hput | ⟨e, he, rest⟩
        · rcases mem_names_putKey hput with rfl | hk
          · exact .inr ⟨_, .head _, key₀, rfl, rfl⟩
          · exact .inl hk
        · exact .inr ⟨e, .tail _ he, rest⟩
      · rw [hget, List.lookup_cons, Entries.get?_put]
        by_cases hkey : key = key₀
        · subst hkey
          have hnone : env.lookup (fieldName sec.name key) = none := by
            rw [List.lookup_eq_none_iff]
            intro e he
            rw [bne_iff_ne]
            intro heq
            exact hfirst (List.mem_map.mpr ⟨e, he, heq.symm⟩)
          simp [hnone, hv, Except.toOption]
        · have hne : (fieldName sec.name key == fieldName sec.name key₀) = false := by
            rw [beq_eq_false_iff_ne, Ne, fieldName_inj]
            exact hkey
          simp [hne, Ne.symm hkey]

theorem spelled_eq_self {sec : Section} (hsec : sec ∈ Section.all) {key : String}
    (hlowered : ∀ c ∈ key.toList, Text.IsLowered c) :
    (sec.fields.find? (· == Text.lower key)).getD key = key := by
  have hascii : ∀ sec ∈ Section.all, ∀ f ∈ sec.fields, ∀ c ∈ f.toList, c.toNat < 0x80 := by
    simp [Section.all]
  cases hfound : sec.fields.find? (· == Text.lower key) with
  | none => rfl
  | some f =>
    have hlower : Text.lowerChars key.toList = f.toList := by
      have hf : f = Text.lower key := by simpa using List.find?_some hfound
      rw [hf, Text.lower, String.toList_ofList]
    have hsame : key.toList = f.toList :=
      Text.eq_of_lowerAfter_eq hlowered (hascii sec hsec f (List.mem_of_find?_eq_some hfound))
        hlower
    exact (String.toList_inj.mp hsame).symm

theorem respell_eq_self {sec : Section} (hsec : sec ∈ Section.all) {es : Entries}
    (hdistinct : DistinctKeys es.names)
    (hlowered : ∀ k ∈ es.names, ∃ key : String, k = .text key ∧ ∀ c ∈ key.toList,
      Text.IsLowered c) :
    respell sec es = es := by
  have hput : respell sec es = es.foldl (fun done e => putKey e.1 e.2 done) [] := by
    unfold respell
    apply List.foldl_ext
    rintro done ⟨k, v⟩ he
    obtain ⟨key, rfl, hcs⟩ := hlowered k (List.mem_map_of_mem he)
    simp only [spelled_eq_self hsec hcs]
  rw [hput]
  exact foldl_putKey [] hdistinct

section Settings

variable {env : Environment} (hplain : env.Plain)

include hplain

theorem Plain.of_mem_normal {sec : Section} (hsec : sec ∈ Section.all) {e : String × String}
    (he : e ∈ normal .standard env) :
    e.1 ≠ "codeoutline__" ++ sec.name ∧ ∀ key, e.1 = fieldName sec.name key →
      Text.contains key "__" = false ∧ ∀ c ∈ key.toList, Text.IsLowered c := by
  obtain ⟨given, hgiven, heq⟩ := exists_of_mem_normal env he
  obtain ⟨hwhole, hkeys⟩ := hplain given hgiven sec.name (name_mem_sections sec hsec)
  rw [← heq] at hwhole hkeys
  refine ⟨hwhole, fun key hkey => ⟨hkeys key hkey, fun c hc => ?_⟩⟩
  have hlower : c ∈ Text.lowerChars given.1.toList := by
    have hchars : e.1.toList = Text.lowerChars given.1.toList := by
      rw [heq, Text.lower, String.toList_ofList]
    rw [← hchars, hkey, fieldName, String.toList_append]
    exact List.mem_append_right _ hc
  exact Text.isLowered_of_mem_lowerAfter hlower

theorem exists_sectionValue {sec : Section} (hsec : sec ∈ Section.all)
    (hreads : ∀ key text, env.textOf? (fieldName sec.name key) = some text →
      ∃ v, fieldValue sec key text = .ok v ∧ v.Within 0) :
    ∃ es : Entries, sectionValue .standard (normal .standard env) sec = .ok (if es.isEmpty then none
      else some (.map es)) ∧
      DistinctKeys es.names ∧ (∀ e ∈ es, e.2.Within 0) ∧ ∀ key, es.get? key =
        (env.textOf? (fieldName sec.name key)).bind fun text =>
          (fieldValue sec key text).toOption := by
  have hmem := fun e he => hplain.of_mem_normal hsec (e := e) he
  have hvalues : ∀ e ∈ normal .standard env, ∀ key, e.1 = fieldName sec.name key →
      ∃ v, fieldValue sec key e.2 = .ok v ∧ v.Within 0 := by
    intro e he key hkey
    apply hreads key e.2
    rw [← lookup_normal, ← hkey]
    exact lookup_of_mem (nodup_normal env) he
  obtain ⟨es, hes, hdistinct, hflat, hnames, hget⟩ := exists_valuesOf hsec (nodup_normal env)
    (fun e he key hkey => ((hmem e he).2 key hkey).1) hvalues [] List.Pairwise.nil (by rintro e ⟨⟩)
  have hlowered : ∀ k ∈ es.names, ∃ key : String, k = .text key ∧ ∀ c ∈ key.toList,
      Text.IsLowered c := by
    intro k hk
    rcases hnames k hk with hnil | ⟨e, he, key, hkey, rfl⟩
    · cases hnil
    · exact ⟨key, rfl, ((hmem e he).2 key hkey).2⟩
  refine ⟨es, ?_, hdistinct, hflat, fun key => ?_⟩
  · have hnone : (normal .standard env).lookup (sectionName .standard sec) = none := by
      rw [sectionName_standard hsec, List.lookup_eq_none_iff]
      intro e he
      rw [bne_iff_ne]
      exact (hmem e he).1.symm
    unfold sectionValue
    rw [hnone, hes]
    simp only [Except.map, ofValues, EnvironmentRules.standard, Bool.false_eq_true, if_false,
      respell_eq_self hsec hdistinct hlowered]
  · rw [hget, lookup_normal]
    cases env.textOf? (fieldName sec.name key) <;> rfl

theorem exists_sectionsOf {secs : List Section} (hall : ∀ sec ∈ secs, sec ∈ Section.all)
    (hnodup : (secs.map (·.name)).Nodup)
    (hreads : ∀ sec ∈ secs, ∀ key text, env.textOf? (fieldName sec.name key) = some text →
      ∃ v, fieldValue sec key text = .ok v ∧ v.Within 0) :
    ∃ es, sectionsOf .standard (normal .standard env) secs = .ok es ∧ es.Sectioned ∧
      (∀ e ∈ es, e.2.Within 1) ∧
      (∀ k ∈ es.names, ∃ sec ∈ secs, k = .text sec.name) ∧ ∀ sec ∈ secs, ∀ key,
        es.leaf sec.name key =
        (env.textOf? (fieldName sec.name key)).bind fun text =>
          (fieldValue sec key text).toOption := by
  induction secs with
  | nil =>
    refine ⟨[], rfl, .nil, ?_, ?_, ?_⟩
    · rintro e ⟨⟩
    · rintro k ⟨⟩
    · rintro sec ⟨⟩
  | cons sec secs ih =>
    obtain ⟨hsec, hsecs⟩ := List.forall_mem_cons.mp hall
    obtain ⟨hfirst, hothers⟩ := List.nodup_cons.mp hnodup
    obtain ⟨hreadsFirst, hreadsRest⟩ := List.forall_mem_cons.mp hreads
    obtain ⟨es, hes, hsectioned, hdepth, hnames, hleaf⟩ := ih hsecs hothers hreadsRest
    obtain ⟨inner, hinner, hdistinct, hflat, hget⟩ := exists_sectionValue hplain hsec hreadsFirst
    have hnew : .text sec.name ∉ es.names := by
      intro hmem
      obtain ⟨other, hother, heq⟩ := hnames _ hmem
      exact hfirst (List.mem_map.mpr ⟨other, hother, (Scalar.text.inj heq).symm⟩)
    have hsame : ∀ other ∈ secs, sec.name ≠ other.name := fun other hother heq =>
      hfirst (List.mem_map.mpr ⟨other, hother, heq.symm⟩)
    unfold sectionsOf
    rw [hinner, hes]
    by_cases hempty : inner.isEmpty
    · -- Without any variable of its own the section is left out.
      refine ⟨es, by simp [hempty, Except.bind, Except.map], hsectioned, hdepth, fun k hk => ?_, ?_⟩
      · obtain ⟨other, hother, heq⟩ := hnames k hk
        exact ⟨other, .tail _ hother, heq⟩
      · refine List.forall_mem_cons.mpr ⟨fun key => ?_, hleaf⟩
        rw [← hget, List.isEmpty_iff.mp hempty, Entries.leaf, Entries.get?_eq_none_iff.mpr hnew]
        rfl
    · refine ⟨(.text sec.name, .map inner) :: es, by simp [hempty, Except.bind, Except.map], ?_, ?_,
        ?_, ?_⟩
      · exact hsectioned.cons (name_mem_sections sec hsec) hnew hdistinct
      · exact List.forall_mem_cons.mpr ⟨.map hflat, hdepth⟩
      · refine List.forall_mem_cons.mpr ⟨⟨sec, .head _, rfl⟩, fun k hk => ?_⟩
        obtain ⟨other, hother, heq⟩ := hnames k hk
        exact ⟨other, .tail _ hother, heq⟩
      · refine List.forall_mem_cons.mpr ⟨fun key => ?_, fun other hother key => ?_⟩
        · rw [Entries.leaf_cons, if_pos rfl, hget]
        · rw [Entries.leaf_cons, if_neg (hsame other hother), hleaf other hother]

theorem exists_settings (hreads : ∀ sec ∈ Section.all, ∀ key text,
      env.textOf? (fieldName sec.name key) = some text → ∃ v, fieldValue sec key text = .ok v ∧
      v.Within 0) :
    ∃ es, env.settings .standard = .ok es ∧ es.Sectioned ∧ (∀ e ∈ es, e.2.Within 1) ∧
      ∀ sec ∈ Section.all, ∀ key, es.leaf sec.name key =
        (env.textOf? (fieldName sec.name key)).bind fun text =>
          (fieldValue sec key text).toOption := by
  obtain ⟨es, hes, hsectioned, hdepth, -, hleaf⟩ :=
    exists_sectionsOf hplain (fun _ h => h) (by decide) hreads
  exact ⟨es, hes, hsectioned, hdepth, hleaf⟩

end Settings

end Environment

end SourceOutline
