import Mathlib
import SourceOutline.Extraction.Extractor
import SourceOutline.Proofs.Settings.Leaves
import SourceOutline.Proofs.Settings.Variables
import SourceOutline.Proofs.Yaml.Keys

/-! Which source decides. Two merges stand one on the other, that of the two files and that of the
files with the environment and the overrides; yet each setting is decided for itself, by the highest
source that gives it. -/
namespace SourceOutline

theorem Entries.OnlySections.get?_eq_none {es : Entries} (honly : es.OnlySections) {name : String}
    (hname : name ∉ Settings.sections) : es.get? name = none := by
  rw [get?_eq_none_iff]
  intro hmem
  obtain ⟨e, he, heq⟩ := List.mem_map.mp hmem
  obtain ⟨sec, hsec, inner, rfl⟩ := honly e he
  exact hname (Scalar.text.inj heq ▸ hsec)

section Chosen

variable (f : String → Option Value) {names : List String} (hnodup : names.Nodup)

def Entries.chosen (names : List String) : Entries :=
  names.filterMap fun name => (f name).map fun v => (.text name, v)

theorem Entries.mem_chosen {e : Scalar × Value} :
    e ∈ chosen f names ↔ ∃ name ∈ names, ∃ v, f name = some v ∧ e = (.text name, v) := by
  simp only [chosen, List.mem_filterMap, Option.map_eq_some_iff, eq_comm (b := e)]

include hnodup

theorem Entries.distinctKeys_chosen : DistinctKeys (chosen f names).names := by
  induction names with
  | nil => exact List.Pairwise.nil
  | cons name names ih =>
    obtain ⟨hfirst, hrest⟩ := List.nodup_cons.mp hnodup
    cases hname : f name with
    | none => simpa [chosen, hname] using ih hrest
    | some v =>
      have hcons : chosen f (name :: names) = (.text name, v) :: chosen f names := by
        simp [chosen, hname]
      rw [hcons]
      refine List.pairwise_cons.mpr ⟨fun k hk => ?_, ih hrest⟩
      obtain ⟨e, he, rfl⟩ := List.mem_map.mp hk
      obtain ⟨other, hother, w, -, rfl⟩ := (mem_chosen f).mp he
      rw [← Bool.not_eq_true, Scalar.text_same_iff]
      intro heq
      exact hfirst (Scalar.text.inj heq ▸ hother)

theorem Entries.get?_chosen {name : String} (hname : name ∈ names) :
    (chosen f names).get? name = f name := by
  ext v
  constructor
  · intro hv
    obtain ⟨other, -, w, hw, heq⟩ := (mem_chosen f).mp (mem_of_get? hv)
    cases heq
    exact hw
  · intro hv
    exact get?_of_mem (distinctKeys_chosen f hnodup) ((mem_chosen f).mpr ⟨name, hname, v, hv, rfl⟩)

end Chosen

namespace Overrides

variable {o : Overrides} (honly : o.entries.OnlySections)

theorem names_section {name : String} (hname : name ∈ Settings.sections) (sec : String) :
    names sec (.text name) = (name == sec) := by
  have hlower : ∀ name ∈ Settings.sections, Text.lower name = name := by decide +kernel
  rw [names, hlower name hname]

include honly

theorem checkRoot_of_onlySections : o.checkRoot = .ok () := by
  unfold checkRoot
  rw [honly.get?_eq_none (by decide)]

theorem rules_of_onlySections : o.rules = .standard := by
  have hgiven : ∀ name ∈ ruleNames, o.given? name = none := by
    intro name hname
    have houtside : ∀ name ∈ ruleNames, name ∉ Settings.sections := by decide
    rw [given?, honly.get?_eq_none (houtside name hname)]
    rfl
  simp only [ruleNames, List.forall_mem_cons] at hgiven
  obtain ⟨hstart, hseparator, hcase, hempty, hnull, hkeys, -⟩ := hgiven
  simp only [rules, hstart, hseparator, hcase, hempty, hnull, hkeys]
  rfl

theorem find?_names (sec : String) :
    (List.find? (fun e => names sec e.1) o.entries).map (·.2) = o.entries.get? sec := by
  generalize o.entries = es at honly
  induction es with
  | nil => rfl
  | cons e es ih =>
    obtain ⟨⟨name, hname, inner, rfl⟩, hrest⟩ := List.forall_mem_cons.mp honly
    rw [List.find?_cons, names_section hname, Entries.get?_cons]
    by_cases hsec : name = sec
    · simp [hsec]
    · have hne : (name == sec) = false := by simpa using hsec
      simp [hne, hsec, ih hrest]

theorem settings_of_onlySections :
    o.settings = Entries.chosen o.entries.get? Settings.sections := by
  have hfree : o.entries.filter (fun e => !isReserved e.1) = o.entries := by
    have hfree : ∀ name ∈ Settings.sections, isReserved (.text name) = false := by decide
    rw [List.filter_eq_self]
    intro e he
    obtain ⟨name, hname, inner, rfl⟩ := honly e he
    simp [hfree name hname]
  have hnone : (o.entries.filter fun e => !Settings.sections.any (names · e.1)) = [] := by
    rw [List.filter_eq_nil_iff]
    intro e he
    obtain ⟨name, hname, inner, rfl⟩ := honly e he
    simpa [names_section hname] using hname
  unfold settings Entries.chosen
  simp only [hfree, hnone, List.append_nil]
  apply List.filterMap_congr
  intro sec hsec
  rw [← find?_names honly, Option.map_map]
  rfl

theorem onlySections_settings : o.settings.OnlySections := by
  rw [settings_of_onlySections honly]
  intro e he
  obtain ⟨sec, hsec, v, hv, rfl⟩ := (Entries.mem_chosen _).mp he
  obtain ⟨name, -, inner, heq⟩ := honly _ (Entries.mem_of_get? hv)
  cases heq
  exact ⟨sec, hsec, inner, rfl⟩

theorem wellKeyed_settings (hkeyed : o.entries.WellKeyed) : o.settings.WellKeyed := by
  rw [settings_of_onlySections honly]
  refine ⟨Entries.distinctKeys_chosen _ (by decide), fun e he inner hinner => ?_⟩
  obtain ⟨sec, -, v, hv, rfl⟩ := (Entries.mem_chosen _).mp he
  exact hkeyed.2 _ (Entries.mem_of_get? hv) inner hinner

theorem of_mem_settings {e : Scalar × Value} (he : e ∈ o.settings) :
    ∃ e' ∈ o.entries, e'.2 = e.2 := by
  rw [settings_of_onlySections honly] at he
  obtain ⟨sec, -, v, hv, rfl⟩ := (Entries.mem_chosen _).mp he
  exact ⟨_, Entries.mem_of_get? hv, rfl⟩

theorem givenIn_settings {sec : String} (hsec : sec ∈ Settings.sections) (key : String) :
    givenIn o.settings sec key = givenIn o.entries sec key := by
  unfold givenIn
  rw [settings_of_onlySections honly, Entries.get?_chosen _ (by decide) hsec]

end Overrides

namespace Leaf

variable (h : Homes) (l : Leaf)

/-- What the environment gives for a setting. A text that has to be JSON and is not is never
good. -/
def inEnvironment (env : Environment) : Option (Checked l.Of) :=
  (env.textOf? (Environment.fieldName l.sec.name l.key)).map fun text =>
    match Environment.fieldValue l.sec l.key text with
    | .ok v => l.check h v
    | .error _ => .bad []

/-- What the sources give for a setting, the highest first: overrides, environment, repository and
user. -/
def given (o : Overrides) (env : Environment) (repo user : Entries) : List (Checked l.Of) :=
  [l.inEntries h o.entries, l.inEnvironment h env, l.inEntries h repo,
    l.inEntries h user].reduceOption

variable {h l}

theorem check_good_closed {v : Value} (hgood : ∃ a, l.check h v = .good a) (es : Entries) :
    l.check h (Value.closed (.map es) 0 v) = l.check h v := by
  obtain ⟨a, ha⟩ := hgood
  rw [ha, l.check_closed (by simp) 0 ha]

theorem inEntries_of_map {es inner : Entries} (hsec : es.get? l.sec.name = some (.map inner)) :
    l.inEntries h es =
      (Entries.get? (Value.closedEntries (.map inner) 0 inner) l.key).map (l.check h) := by
  rw [inEntries, givenIn, hsec]
  rfl

theorem inEntries_of_none {es : Entries} (hsec : es.get? l.sec.name = none) :
    l.inEntries h es = none := by
  rw [inEntries, givenIn, hsec]
  rfl

theorem inEntries_merge {n : Nat} {base top es : Entries} (hes : Entries.merge n base top = .ok es)
    (hbase : base.Sectioned) (htop : top.Sectioned)
    (hgood : ∀ src ∈ [base, top], ∀ c ∈ l.inEntries h src, ∃ a, c = .good a) :
    l.inEntries h es = (l.inEntries h top).or (l.inEntries h base) := by
  cases ht : top.get? l.sec.name with
  | none =>
    have hget := Entries.get?_mergeBy_of_none hes htop.distinct ht
    rw [inEntries_of_none ht, Option.none_or, inEntries, inEntries, givenIn, givenIn, hget]
  | some t =>
    obtain ⟨t, rfl, hdistinct⟩ := htop.isMap _ t ht
    cases hb : base.get? l.sec.name with
    | none =>
      obtain ⟨merged, hmerged, hget⟩ := Entries.get?_mergeBy_of_some hes htop.distinct ht
      rw [hb] at hmerged
      cases hmerged
      rw [inEntries_of_none hb, Option.or_none, inEntries_of_map hget, inEntries_of_map ht]
    | some b =>
      obtain ⟨b, rfl, -⟩ := hbase.isMap _ b hb
      obtain ⟨k, inner, hget, hinner⟩ := Entries.get?_merge_maps hes htop.distinct hb ht
      have hgoodBase := hgood base (by simp)
      have hgoodTop := hgood top (by simp)
      rw [inEntries_of_map hb] at hgoodBase
      rw [inEntries_of_map ht] at hgoodTop
      rw [inEntries_of_map hget, inEntries_of_map ht, inEntries_of_map hb, get?_closedEntries]
      have hkeys : DistinctKeys (Entries.names (Value.closedEntries (.map t) 0 t)) := by
        rwa [names_closedEntries]
      cases hv : Entries.get? (Value.closedEntries (.map t) 0 t) l.key with
      | none =>
        rw [Entries.get?_mergeBy_of_none hinner hkeys hv]
        cases hv' : Entries.get? (Value.closedEntries (.map b) 0 b) l.key with
        | none => rfl
        | some v => exact congrArg some (check_good_closed (hgoodBase _ (by rw [hv']; rfl)) inner)
      | some v =>
        obtain ⟨a, ha⟩ := hgoodTop (l.check h v) (by rw [hv]; rfl)
        obtain ⟨merged, hmerged, hthere⟩ := Entries.get?_mergeBy_of_some hinner hkeys hv
        have hsame : merged = v := by
          cases hv' : Entries.get? (Value.closedEntries (.map b) 0 b) l.key with
          | none =>
            rw [hv'] at hmerged
            exact (Except.ok.inj hmerged).symm
          | some old =>
            rw [hv'] at hmerged
            refine (Except.ok.inj ((Value.merge_of_not_map ?_).symm.trans hmerged)).symm
            rintro ⟨-, vs, hvs⟩
            cases (l.within_of_check ha).entries?_of_zero.symm.trans hvs
        rw [hthere, hsame]
        exact congrArg some (check_good_closed ⟨a, ha⟩ inner)

theorem inSections_merge {n : Nat} {user repo env overrides files above merged : Entries}
    (hfiles : Entries.merge n user repo = .ok files)
    (habove : Entries.merge n env overrides = .ok above)
    (hmerged : Entries.merge n files above = .ok merged)
    (hsectioned : ∀ es ∈ [user, repo, env, overrides], es.Sectioned)
    (hgood : ∀ es ∈ [user, repo, env, overrides], ∀ c ∈ l.inEntries h es, ∃ a, c = .good a) :
    l.inSections h merged =
      [l.inEntries h overrides, l.inEntries h env, l.inEntries h repo,
        l.inEntries h user].reduceOption.headD (.good l.standard) := by
  simp only [List.forall_mem_cons] at hsectioned hgood
  obtain ⟨huser, hrepo, henv, hover, -⟩ := hsectioned
  obtain ⟨huserGood, hrepoGood, henvGood, hoverGood, -⟩ := hgood
  have hlower := inEntries_merge hfiles huser hrepo (by simpa using ⟨huserGood, hrepoGood⟩)
  have hupper := inEntries_merge habove henv hover (by simpa using ⟨henvGood, hoverGood⟩)
  have hor {c? d? : Option (Checked l.Of)} (hc : ∀ c ∈ c?, ∃ a, c = .good a)
      (hd : ∀ d ∈ d?, ∃ a, d = .good a) : ∀ e ∈ c?.or d?, ∃ a, e = .good a := by
    intro e he
    rcases Option.or_eq_some_iff.mp he with he | ⟨-, he⟩
    · exact hc e he
    · exact hd e he
  have hboth : ∀ es ∈ [files, above], ∀ c ∈ l.inEntries h es, ∃ a, c = .good a := by
    simp only [List.forall_mem_cons, hlower, hupper]
    exact ⟨hor hrepoGood huserGood, hor hoverGood henvGood, by simp⟩
  have hwhole := inEntries_merge hmerged (huser.merge hfiles hrepo) (henv.merge habove hover) hboth
  rw [inSections, hwhole, hlower, hupper]
  cases l.inEntries h overrides <;> cases l.inEntries h env <;> cases l.inEntries h repo <;>
    cases l.inEntries h user <;> rfl

theorem exists_fieldValue {env : Environment}
    (hgood : ∀ c ∈ l.inEnvironment h env, ∃ a, c = .good a) {text : String}
    (htext : env.textOf? (Environment.fieldName l.sec.name l.key) = some text) :
    ∃ v a, Environment.fieldValue l.sec l.key text = .ok v ∧ l.check h v = .good a := by
  rw [inEnvironment, htext] at hgood
  obtain ⟨a, ha⟩ := hgood _ rfl
  cases hvalue : Environment.fieldValue l.sec l.key text with
  | ok v =>
    simp only [hvalue] at ha
    exact ⟨v, a, rfl, ha⟩
  | error e =>
    simp only [hvalue] at ha
    cases ha

end Leaf

theorem Environment.reads_of_outputs {env : Environment}
    (houtputs : ∀ text, env.textOf? (fieldName "logging" "outputs") = some text →
      ∃ v, fieldValue Leaf.outputs.sec "outputs" text = .ok v ∧ v.Within 0) :
    ∀ sec ∈ Section.all, ∀ key text, env.textOf? (fieldName sec.name key) = some text →
      ∃ v, fieldValue sec key text = .ok v ∧ v.Within 0 := by
  intro sec hsec key text htext
  by_cases hjson : isJsonField sec [key] text
  · have hlogging : ∀ sec ∈ Section.all, sec.name = "logging" → sec = Leaf.outputs.sec := by decide
    have hfield : (sec.name = "logging" ∧ key = "outputs") ∧ ¬text.isEmpty := by
      simpa [isJsonField] using hjson
    obtain ⟨⟨hname, rfl⟩, -⟩ := hfield
    cases hlogging sec hsec hname
    exact houtputs text htext
  · exact ⟨.text text, by simp [fieldValue, hjson], .plain (by simp) (by simp)⟩

theorem Environment.exists_sections {env : Environment} (hplain : env.Plain) {h : Homes}
    (hgood : ∀ l : Leaf, ∀ c ∈ l.inEnvironment h env, ∃ a, c = .good a) :
    ∃ es, env.settings .standard = .ok es ∧ es.Sectioned ∧ (∀ e ∈ es, e.2.Within 1) ∧
      ∀ l : Leaf, l.inEntries h es = l.inEnvironment h env := by
  have houtputs (text : String)
      (htext : env.textOf? (fieldName Leaf.outputs.sec.name Leaf.outputs.key) = some text) :
      ∃ v, fieldValue Leaf.outputs.sec Leaf.outputs.key text = .ok v ∧ v.Within 0 := by
    obtain ⟨v, a, hv, ha⟩ := Leaf.exists_fieldValue (hgood .outputs) htext
    exact ⟨v, hv, Leaf.within_of_check _ ha⟩
  obtain ⟨es, hes, hsectioned, hdepth, hleaf⟩ := exists_settings hplain (reads_of_outputs houtputs)
  refine ⟨es, hes, hsectioned, hdepth, fun l => ?_⟩
  have hvalue := hleaf l.sec l.sec_mem l.key
  rw [Leaf.inEnvironment]
  cases hsec : es.get? l.sec.name with
  | none =>
    rw [Leaf.inEntries_of_none hsec]
    rw [Entries.leaf, hsec] at hvalue
    cases htext : env.textOf? (fieldName l.sec.name l.key) with
    | none => rfl
    | some text =>
      obtain ⟨v, a, hv, -⟩ := Leaf.exists_fieldValue (hgood l) htext
      simp [htext, hv, Except.toOption] at hvalue
  | some v =>
    obtain ⟨inner, rfl, -⟩ := hsectioned.isMap _ v hsec
    rw [Leaf.inEntries_of_map hsec, get?_closedEntries]
    rw [Entries.leaf, hsec] at hvalue
    dsimp only at hvalue
    rw [hvalue]
    cases htext : env.textOf? (fieldName l.sec.name l.key) with
    | none => rfl
    | some text =>
      obtain ⟨v, a, hv, ha⟩ := Leaf.exists_fieldValue (hgood l) htext
      simp [hv, Except.toOption, Leaf.check_good_closed ⟨a, ha⟩ inner]

theorem Overrides.inEntries_settings {o : Overrides} (honly : o.entries.OnlySections) (h : Homes)
    (l : Leaf) : l.inEntries h o.settings = l.inEntries h o.entries := by
  rw [Leaf.inEntries, Leaf.inEntries,
    givenIn_settings honly (Environment.name_mem_sections l.sec l.sec_mem)]

theorem one_le_of_checkIntBy {v? : Option Value} {standard n : Int} {good : Int → Bool}
    {reason : Int → String} (hstandard : 1 ≤ standard) (hpred : ∀ n, good n → 1 ≤ n)
    (hgood : (v?.map (checkIntBy good reason)).getD (.good standard) = .good n) : 1 ≤ n := by
  cases v? with
  | none =>
    cases hgood
    exact hstandard
  | some v =>
    obtain ⟨m, -, hm⟩ := Checked.bind_eq_good_iff.mp hgood
    split at hm
    · rename_i hm'
      cases hm
      exact hpred n hm'
    · cases hm

/-- Every setting is decided by itself: by the highest source that gives it, whatever the sources
give for the others; and without any source it is the standard one. Extraction accepts the
result. -/
theorem settings_decided_leaf_by_leaf (h : Homes) (repo user : SettingsFile) (env : Environment)
    (o : Overrides) (r u : Entries) (hrepo : repo.read = .ok r) (huser : user.read = .ok u)
    (honly : r.OnlySections ∧ u.OnlySections ∧ o.entries.OnlySections)
    (hkeyed : o.entries.WellKeyed) (hdepth : ∀ es ∈ [r, o.entries], ∀ e ∈ es, e.2.Within maxNesting)
    (hplain : env.Plain) (hvalid : ∀ l : Leaf, ∀ c ∈ l.given h o env r u, ∃ a, c = .good a) :
    ∃ s limits, loadSettings h repo user env o = .ok s ∧
      (∀ l : Leaf, (l.given h o env r u).headD (.good l.standard) = .good (l.get s)) ∧
      ExtractionLimits.make s.extraction.minLines s.extraction.maxWorkers = .ok limits := by
  obtain ⟨hr, hu, ho⟩ := honly
  have hgood : ∀ l : Leaf, ∀ c?, c? ∈ [l.inEntries h o.entries, l.inEnvironment h env,
      l.inEntries h r, l.inEntries h u] → ∀ c ∈ c?, ∃ a, c = .good a := by
    rintro l c? hc? c rfl
    exact hvalid l c (List.reduceOption_mem_iff.mpr hc?)
  obtain ⟨e, he, hesec, hedepth, heread⟩ :=
    Environment.exists_sections hplain fun l => hgood l (l.inEnvironment h env) (by simp)
  -- Only the overrides need `hkeyed`: what is read from a file has distinct keys already.
  have hrsec := hr.sectioned (SettingsFile.wellKeyed_of_read hrepo)
  have husec := hu.sectioned (SettingsFile.wellKeyed_of_read huser)
  have hosec :=
    (Overrides.onlySections_settings ho).sectioned (Overrides.wellKeyed_settings ho hkeyed)
  have hodepth : ∀ e ∈ o.settings, e.2.Within maxNesting := by
    intro e he
    obtain ⟨e', he', heq⟩ := Overrides.of_mem_settings ho he
    exact heq ▸ hdepth o.entries (by simp) e' he'
  obtain ⟨files, hfiles⟩ := Entries.exists_merge (hdepth r (by simp)) u
  obtain ⟨above, habove⟩ := Entries.exists_merge hodepth e
  have hadepth := Entries.within_merge (fun f hf => (hedepth f hf).mono (by decide)) hodepth habove
  obtain ⟨merged, hmerged⟩ := Entries.exists_merge hadepth files
  have hdecided : ∀ l : Leaf,
      l.inSections h merged = (l.given h o env r u).headD (.good l.standard) := by
    intro l
    have horead := Overrides.inEntries_settings ho h l
    rw [Leaf.inSections_merge hfiles habove hmerged (by simp [husec, hrsec, hesec, hosec]), horead,
      heread l, Leaf.given]
    simp only [List.forall_mem_cons, horead, heread l]
    exact ⟨hgood l _ (by simp), hgood l _ (by simp), hgood l _ (by simp), hgood l _ (by simp),
      by simp⟩
  have hexists : ∀ l : Leaf, ∃ a, l.inSections h merged = .good a := by
    intro l
    rw [hdecided]
    cases hgiven : l.given h o env r u with
    | nil => exact ⟨l.standard, rfl⟩
    | cons c cs => exact hvalid l c (hgiven ▸ .head _)
  -- Each setting is good by itself, so the settings can be collected before anything is loaded.
  choose f hf using hexists
  have hload : loadSettings h repo user env o = .ok (.ofLeaves f) := by
    have hsectioned := (husec.merge hfiles hrsec).merge hmerged (hesec.merge habove hosec)
    unfold loadSettings
    rw [Overrides.checkRoot_of_onlySections ho, Overrides.rules_of_onlySections ho,
      hrepo, huser, he]
    change (Except.mapError _ (Entries.merge maxNesting u r)).bind _ = _
    rw [hfiles]
    change (Except.mapError _ (Entries.merge maxNesting e o.settings)).bind _ = _
    rw [habove]
    change (Except.mapError _ (Entries.merge maxNesting files above)).bind _ = _
    rw [hmerged]
    exact settingsOf_sectioned hsectioned hf
  have hmin : 1 ≤ f .minLines := one_le_of_checkIntBy (by decide) (by simp) (hf .minLines)
  have hworkers : 1 ≤ f .maxWorkers :=
    one_le_of_checkIntBy (by decide) (by simp +contextual) (hf .maxWorkers)
  refine ⟨.ofLeaves f, ⟨f .minLines, f .maxWorkers, hmin, hworkers⟩, hload, fun l => ?_, ?_⟩
  · rw [← hdecided, hf, Leaf.get_ofLeaves]
  · simp [ExtractionLimits.make, Settings.ofLeaves, hmin, hworkers]

def Checked.value? {α : Type} : Checked α → Option α
  | .good a => some a
  | _ => none

def oneSetting (sec key : String) (n : Int) : Entries := [(.text sec, .map [(.text key, .int n)])]

def isOneSetting (sec key : String) (n : Int) : Except Yaml.YamlError Value → Bool
  | .ok (.map [(.text s, .map [(.text k, .scalar (.int m))])]) => s == sec && k == key && m == n
  | _ => false

theorem read_of_isOneSetting {path text sec key : String} {cs : List Char} {n : Int}
    (htext : text.toList = cs)
    (h : isOneSetting sec key n ((Yaml.TokenStream.ofText (Yaml.unifyBreaks cs) none).document.bind
      Yaml.Document.value)) :
    SettingsFile.read ⟨path, .text text⟩ = .ok (oneSetting sec key n) := by
  have hread : Yaml.read text none = .ok (.map (oneSetting sec key n)) := by
    rw [Yaml.read, htext]
    unfold isOneSetting at h
    split at h
    · rename_i s k m heq
      simp only [Bool.and_eq_true, beq_iff_eq] at h
      rw [heq, h.1.1, h.1.2, h.2]
      rfl
    · cases h
  change SettingsFile.entriesOf _ (Yaml.read text none) = _
  rw [hread]
  rfl

/-- The least number of lines in the repository, the number of workers with the user. -/
def repoFile : SettingsFile := ⟨"repo", .text "extraction:\n  min_lines: 2\n"⟩

def userFile : SettingsFile := ⟨"user", .text "extraction:\n  max_workers: 3\n"⟩

def minLinesVariable : Environment := [("CodeOutline__Extraction__Min_Lines", "5")]

def debugOverride : Overrides := ⟨false, [(.text "logging", .map [(.text "level", .text "DEBUG")])]⟩

/-- The environment wins over the repository, and what the user says of a sibling is kept. -/
theorem settings_decided_leaf_by_leaf_siblings :
    minLinesVariable.Plain ∧ debugOverride.entries.OnlySections ∧ debugOverride.entries.WellKeyed ∧
      (∀ e ∈ debugOverride.entries, e.2.Within maxNesting) ∧
      ∃ s limits, loadSettings ⟨"/home", []⟩ repoFile userFile minLinesVariable
        debugOverride = .ok s ∧
        s.extraction.minLines = 5 ∧ s.extraction.maxWorkers = 3 ∧ s.logging.level = .debug ∧
        ExtractionLimits.make s.extraction.minLines s.extraction.maxWorkers = .ok limits := by
  have hrepo : repoFile.read = .ok (oneSetting "extraction" "min_lines" 2) :=
    read_of_isOneSetting String.toList_ofList (by decide +kernel)
  have huser : userFile.read = .ok (oneSetting "extraction" "max_workers" 3) :=
    read_of_isOneSetting String.toList_ofList (by decide +kernel)
  have honly : ∀ sec ∈ Settings.sections, ∀ inner : Entries,
      Entries.OnlySections [(.text sec, .map inner)] :=
    fun sec hsec inner => List.forall_mem_singleton.mpr ⟨sec, hsec, inner, rfl⟩
  have hoverride : debugOverride.entries.OnlySections := honly "logging" (by decide) _
  have hkeyed : debugOverride.entries.WellKeyed := by
    refine ⟨List.pairwise_singleton _ _, List.forall_mem_singleton.mpr ?_⟩
    rintro inner ⟨⟩
    exact List.pairwise_singleton _ _
  have hdepth (sec key : String) (s : Scalar) :
      ∀ e ∈ [(Scalar.text sec, Value.map [(.text key, .scalar s)])], e.2.Within maxNesting :=
    List.forall_mem_singleton.mpr
      (.map (List.forall_mem_singleton.mpr (.plain (by simp) (by simp))))
  have hdepths : ∀ es ∈ [oneSetting "extraction" "min_lines" 2, debugOverride.entries],
      ∀ e ∈ es, e.2.Within maxNesting := by
    simp only [List.forall_mem_cons (l := [debugOverride.entries]), List.forall_mem_singleton]
    exact ⟨hdepth _ _ _, hdepth _ _ _⟩
  have hplain : minLinesVariable.Plain := by decide +kernel
  let given (l : Leaf) :=
    l.given ⟨"/home", []⟩ debugOverride minLinesVariable (oneSetting "extraction" "min_lines" 2)
    (oneSetting "extraction" "max_workers" 3)
  have hvalid : ∀ l : Leaf, ∀ c ∈ given l, ∃ a, c = .good a := by
    have hall : ∀ l : Leaf, (given l).all (·.value?.isSome) := by
      intro l
      cases l <;> decide +kernel
    intro l c hc
    have hvalue := List.all_eq_true.mp (hall l) c hc
    cases c with
    | good a => exact ⟨a, rfl⟩
    | _ => cases hvalue
  obtain ⟨s, limits, hload, hdecided, hlimits⟩ :=
    settings_decided_leaf_by_leaf ⟨"/home", []⟩ repoFile userFile
    minLinesVariable debugOverride _ _ hrepo huser
    ⟨honly "extraction" (by decide) _, honly "extraction" (by decide) _, hoverride⟩ hkeyed
      hdepths hplain hvalid
  have hvalue : ∀ (l : Leaf) (a : l.Of), ((given l).headD (.good l.standard)).value? = some a →
      l.get s = a :=
    fun l a ha => Option.some.inj ((congrArg Checked.value? (hdecided l)).symm.trans ha)
  exact ⟨hplain, hoverride, hkeyed, hdepth _ _ _, s, limits, hload,
    hvalue .minLines 5 (by decide +kernel),
    hvalue .maxWorkers 3 (by decide +kernel), hvalue .level .debug (by decide +kernel), hlimits⟩

end SourceOutline
