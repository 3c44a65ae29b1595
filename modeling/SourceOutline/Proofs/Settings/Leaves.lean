import Mathlib
import SourceOutline.Proofs.Settings.Merge

/-! The single settings. A value that is good for one of them stays good when ways back in it are
closed by whatever is around it; so merged sections are good when each setting in them is good by
itself. -/
namespace SourceOutline

namespace Checked

variable {α β : Type}

theorem map_eq_good_iff {c : Checked α} {f : α → β} {b : β} :
    c.map f = .good b ↔ ∃ a, c = .good a ∧ f a = b := by
  cases c <;> simp [map]

theorem bind_eq_good_iff {c : Checked α} {f : α → Checked β} {b : β} :
    c.bind f = .good b ↔ ∃ a, c = .good a ∧ f a = .good b := by
  cases c <;> simp [bind]

theorem both_eq_good_iff {c : Checked α} {d : Checked β} {p : α × β} :
    c.both d = .good p ↔ c = .good p.1 ∧ d = .good p.2 := by
  obtain ⟨a, b⟩ := p
  cases c <;> cases d <;> simp [both]

theorem within_eq_good_iff {c : Checked α} {step : Step} {a : α} :
    c.within step = .good a ↔ c = .good a := by
  cases c <;> simp [within]

end Checked

def OnScalars {α : Type} (check : Value → Checked α) : Prop :=
  ∀ v a, check v = .good a → ∃ s, v = .scalar s

namespace OnScalars

variable {α β : Type} {check : Value → Checked α}

theorem checkScalar (problem : Problem) (check : Scalar → Checked α) :
    OnScalars (checkScalar problem check) := by
  intro v a h
  cases v with
  | scalar s => exact ⟨s, rfl⟩
  | _ => cases h

theorem bind (hcheck : OnScalars check) (f : Value → α → Checked β) :
    OnScalars fun v => (check v).bind (f v) := by
  intro v b h
  obtain ⟨a, ha, -⟩ := Checked.bind_eq_good_iff.mp h
  exact hcheck v a ha

theorem checkDestination (h : Homes) : OnScalars (checkDestination h) := (checkScalar _ _).bind _

theorem checkIntBy (good : Int → Bool) (reason : Int → String) :
    OnScalars (checkIntBy good reason) :=
  (checkScalar _ _).bind _

theorem checkOptionalLevel : OnScalars checkOptionalLevel := by
  intro v a h
  unfold SourceOutline.checkOptionalLevel at h
  split at h
  · exact ⟨_, rfl⟩
  · obtain ⟨level, hlevel, -⟩ := Checked.map_eq_good_iff.mp h
    exact checkScalar _ _ v level hlevel

end OnScalars

section Closing

variable {w : Value} (hw : ∀ s, w ≠ .scalar s) (d : Nat)

include hw

theorem closed_eq_scalar_iff {v : Value} {s : Scalar} :
    Value.closed w d v = .scalar s ↔ v = .scalar s := by
  cases v with
  | back levels isList =>
    simp only [Value.closed]
    split
    · simpa using hw s
    · simp
  | _ => simp [Value.closed]

theorem good_closed_iff {α : Type} {check : Value → Checked α} (hcheck : OnScalars check)
    {v : Value} {a : α} : check (Value.closed w d v) = .good a ↔ check v = .good a := by
  constructor
  · intro h
    obtain ⟨s, hs⟩ := hcheck _ a h
    rwa [(closed_eq_scalar_iff hw d).mp hs, ← hs]
  · intro h
    obtain ⟨s, rfl⟩ := hcheck _ a h
    exact h

theorem checkField_closed_iff {α : Type} {check : Value → Checked α} (hcheck : OnScalars check)
    {es : Entries} {name : String} {standard a : α} :
    checkField (Value.closedEntries w d es) name standard check = .good a ↔
      checkField es name standard check = .good a := by
  unfold checkField
  rw [get?_closedEntries]
  cases es.get? name with
  | none => rfl
  | some v =>
    dsimp only [Option.map_some]
    rw [Checked.within_eq_good_iff, Checked.within_eq_good_iff, good_closed_iff hw d hcheck]

end Closing

namespace LogOutput

variable {h : Homes} {o : LogOutput}

def FieldsOf (h : Homes) (o : LogOutput) (es : Entries) : Prop :=
  checkField es "format" standard.format checkFormat = .good o.format ∧
    checkField es "destination" standard.destination (checkDestination h) = .good o.destination ∧
    checkField es "level" none checkOptionalLevel = .good o.level

theorem fieldsOf_closed_iff {w : Value} (hw : ∀ s, w ≠ .scalar s) (d : Nat) {es : Entries} :
    FieldsOf h o (Value.closedEntries w d es) ↔ FieldsOf h o es := by
  have hformat : OnScalars checkFormat := .checkScalar _ _
  unfold FieldsOf
  rw [checkField_closed_iff hw d hformat, checkField_closed_iff hw d (.checkDestination h),
    checkField_closed_iff hw d .checkOptionalLevel]

theorem check_map_iff {es : Entries} : check h (.map es) = .good o ↔ FieldsOf h o es := by
  have hw : ∀ s, Value.map es ≠ .scalar s := by simp
  rw [← fieldsOf_closed_iff hw 0]
  change Checked.map _ (Checked.both (checkField (Value.closedEntries (.map es) 0 es) _ _ _) _) =
    _ ↔ _
  simp only [Checked.map_eq_good_iff, Checked.both_eq_good_iff]
  constructor
  · rintro ⟨⟨f, d, l⟩, hfields, rfl⟩
    exact hfields
  · intro hfields
    exact ⟨(o.format, o.destination, o.level), hfields, rfl⟩

theorem check_closed_map_iff {w : Value} (hw : ∀ s, w ≠ .scalar s) (d : Nat) {es : Entries} :
    check h (Value.closed w d (.map es)) = .good o ↔ check h (.map es) = .good o := by
  rw [Value.closed, check_map_iff, check_map_iff, fieldsOf_closed_iff hw]

theorem exists_map_of_check {v : Value} (hgood : check h v = .good o) : ∃ es, v = .map es := by
  cases v with
  | map es => exact ⟨es, rfl⟩
  | _ => cases hgood

theorem check_closed {w : Value} (hw : ∀ s, w ≠ .scalar s) (d : Nat) {v : Value}
    (hgood : check h v = .good o) : check h (Value.closed w d v) = .good o := by
  obtain ⟨es, rfl⟩ := exists_map_of_check hgood
  exact (check_closed_map_iff hw d).mpr hgood

theorem check_of_check_closed {items : List Value} {v : Value}
    (hgood : check h (Value.closed (.list items) 0 v) = .good o) : check h v = .good o := by
  obtain ⟨es, hes⟩ := exists_map_of_check hgood
  cases v with
  | map es => exact (check_closed_map_iff (by simp) 0).mp hgood
  | back levels isList =>
    simp only [Value.closed] at hes
    split at hes <;> cases hes
  | _ => cases hes

end LogOutput

theorem checkItems_eq_good_iff {α : Type} {check : Value → Checked α} {i : Nat} {vs : List Value}
    {as : List α} :
    checkItems check i vs = .good as ↔ List.Forall₂ (fun v a => check v = .good a) vs as := by
  induction vs generalizing i as with
  | nil => simp [checkItems, eq_comm]
  | cons v vs ih =>
    rw [checkItems, Checked.map_eq_good_iff, List.forall₂_cons_left_iff]
    constructor
    · rintro ⟨⟨b, bs⟩, hboth, rfl⟩
      obtain ⟨hb, hbs⟩ := Checked.both_eq_good_iff.mp hboth
      exact ⟨b, bs, Checked.within_eq_good_iff.mp hb, ih.mp hbs, rfl⟩
    · rintro ⟨b, bs, hb, hbs, rfl⟩
      exact ⟨(b, bs), Checked.both_eq_good_iff.mpr ⟨Checked.within_eq_good_iff.mpr hb, ih.mpr hbs⟩,
        rfl⟩

theorem checkOutputs_closed {h : Homes} {w : Value} (hw : ∀ s, w ≠ .scalar s) (d : Nat) {v : Value}
    {os : List LogOutput} (hgood : checkList (LogOutput.check h) v = .good os) :
    checkList (LogOutput.check h) (Value.closed w d v) = .good os := by
  cases v with
  | list items =>
    change checkItems _ 0 (Value.closedItems (.list items) 0 items) = _ at hgood
    change checkItems _ 0 (Value.closedItems (.list (Value.closedItems w (d + 1) items)) 0
      (Value.closedItems w (d + 1) items)) = _
    rw [checkItems_eq_good_iff] at hgood ⊢
    simp only [closedItems_eq_map, List.forall₂_map_left_iff] at hgood ⊢
    refine hgood.imp fun v o ho => ?_
    exact LogOutput.check_closed (by simp) 0
      (LogOutput.check_closed hw (d + 1) (LogOutput.check_of_check_closed ho))
  | set items => exact hgood
  | _ => cases hgood

/-- One of the settings. -/
inductive Leaf where
  | level
  | outputs
  | minLines
  | maxWorkers
  | maxFiles
deriving DecidableEq, Repr

namespace Leaf

def sec : Leaf → Section
  | level => ⟨"logging", ["level", "outputs"]⟩
  | outputs => ⟨"logging", ["level", "outputs"]⟩
  | minLines => ⟨"extraction", ["min_lines", "max_workers"]⟩
  | maxWorkers => ⟨"extraction", ["min_lines", "max_workers"]⟩
  | maxFiles => ⟨"limits", ["max_files"]⟩

def key : Leaf → String
  | level => "level"
  | outputs => "outputs"
  | minLines => "min_lines"
  | maxWorkers => "max_workers"
  | maxFiles => "max_files"

abbrev Of : Leaf → Type
  | level => Level
  | outputs => List LogOutput
  | minLines => Int
  | maxWorkers => Int
  | maxFiles => Int

def check (h : Homes) : (l : Leaf) → Value → Checked l.Of
  | level => checkLevel
  | outputs => checkList (LogOutput.check h)
  | minLines => checkMinLines
  | maxWorkers => checkMaxWorkers
  | maxFiles => checkMaxFiles

def get : (l : Leaf) → Settings → l.Of
  | level, s => s.logging.level
  | outputs, s => s.logging.outputs
  | minLines, s => s.extraction.minLines
  | maxWorkers, s => s.extraction.maxWorkers
  | maxFiles, s => s.limits.maxFiles

/-- What holds for a setting that no source gives. -/
def standard (l : Leaf) : l.Of := l.get .standard

theorem sec_mem (l : Leaf) : l.sec ∈ Section.all := by
  cases l <;> decide

theorem check_closed (l : Leaf) {h : Homes} {w : Value} (hw : ∀ s, w ≠ .scalar s) (d : Nat)
    {v : Value} {a : l.Of} (hgood : l.check h v = .good a) :
    l.check h (Value.closed w d v) = .good a := by
  cases l with
  | level => exact (good_closed_iff hw d (.checkScalar _ _)).mpr hgood
  | outputs => exact checkOutputs_closed hw d hgood
  | minLines => exact (good_closed_iff hw d (.checkIntBy _ _)).mpr hgood
  | maxWorkers => exact (good_closed_iff hw d (.checkIntBy _ _)).mpr hgood
  | maxFiles => exact (good_closed_iff hw d (.checkIntBy _ _)).mpr hgood

theorem within_of_check (l : Leaf) {h : Homes} {v : Value} {a : l.Of}
    (hgood : l.check h v = .good a) : v.Within 0 := by
  cases v with
  | map es => cases l <;> cases hgood
  | back levels isList => cases l <;> cases hgood
  | _ => exact .plain (by simp) (by simp)

def inEntries (h : Homes) (l : Leaf) (es : Entries) : Option (Checked l.Of) :=
  (givenIn es l.sec.name l.key).map (l.check h)

def inSections (h : Homes) (l : Leaf) (es : Entries) : Checked l.Of :=
  (l.inEntries h es).getD (.good l.standard)

theorem checkField_of_inSections {l : Leaf} {h : Homes} {es inner : Entries} {a : l.Of}
    (hsec : es.get? l.sec.name = some (.map inner)) (hgood : l.inSections h es = .good a) :
    checkField (Value.closedEntries (.map inner) 0 inner) l.key l.standard (l.check h) =
      .good a := by
  have hgiven : givenIn es l.sec.name l.key =
      Entries.get? (Value.closedEntries (.map inner) 0 inner) l.key := by
    rw [givenIn, hsec]
    rfl
  unfold inSections inEntries at hgood
  rw [hgiven] at hgood
  unfold checkField
  cases hkey : Entries.get? (Value.closedEntries (.map inner) 0 inner) l.key with
  | none => simpa [hkey] using hgood
  | some v =>
    rw [hkey] at hgood
    exact Checked.within_eq_good_iff.mpr hgood

theorem eq_standard_of_inSections {l : Leaf} {h : Homes} {es : Entries} {a : l.Of}
    (hsec : es.get? l.sec.name = none) (hgood : l.inSections h es = .good a) : a = l.standard := by
  unfold inSections inEntries givenIn at hgood
  rw [hsec] at hgood
  exact (Checked.good.inj hgood).symm

end Leaf

def Settings.ofLeaves (f : (l : Leaf) → l.Of) : Settings :=
  ⟨⟨f .level, f .outputs⟩, ⟨f .minLines, f .maxWorkers⟩, ⟨f .maxFiles⟩⟩

theorem Leaf.get_ofLeaves (f : (l : Leaf) → l.Of) (l : Leaf) : l.get (.ofLeaves f) = f l := by
  cases l <;> rfl

section Sections

variable {es : Entries} (hes : es.Sectioned)

include hes

theorem checkField_section {α : Type} {name model : String} {standard a : α}
    {check : Entries → Checked α} (hnone : es.get? name = none → a = standard)
    (hsome : ∀ inner, es.get? name = some (.map inner) →
      check (Value.closedEntries (.map inner) 0 inner) = .good a) :
    checkField es name standard (checkModel model check) = .good a := by
  unfold checkField
  cases hname : es.get? name with
  | none => rw [hnone hname]
  | some v =>
    obtain ⟨inner, rfl, -⟩ := hes.isMap name v hname
    dsimp only
    rw [Checked.within_eq_good_iff]
    exact hsome inner hname

theorem checkNoExtras_sectioned : checkNoExtras es = .good () := by
  have hnames := hes.names_mem
  clear hes
  induction es with
  | nil => rfl
  | cons e es ih =>
    obtain ⟨k, v⟩ := e
    obtain ⟨⟨name, hname, rfl⟩, hrest⟩ := List.forall_mem_cons.mp hnames
    have hhere : Settings.sections.contains name := by simpa using hname
    simp only [checkNoExtras, hhere, if_true, ih hrest]
    rfl

theorem checkSections_sectioned {h : Homes} {f : (l : Leaf) → l.Of}
    (hgood : ∀ l : Leaf, l.inSections h es = .good (f l)) :
    Settings.checkSections h es = .good (.ofLeaves f) := by
  have hlogging : checkField es "logging" .standard (LoggingSettings.check h) =
      .good ⟨f .level, f .outputs⟩ := by
    apply checkField_section hes
    · intro hnone
      rw [Leaf.eq_standard_of_inSections hnone (hgood .level),
        Leaf.eq_standard_of_inSections hnone (hgood .outputs)]
      rfl
    · intro inner hsome
      rw [Checked.map_eq_good_iff]
      refine ⟨(f .level, f .outputs), Checked.both_eq_good_iff.mpr ⟨?_, ?_⟩, rfl⟩
      · exact Leaf.checkField_of_inSections hsome (hgood .level)
      · exact Leaf.checkField_of_inSections hsome (hgood .outputs)
  have hextraction : checkField es "extraction" .standard ExtractionSettings.check =
      .good ⟨f .minLines, f .maxWorkers⟩ := by
    apply checkField_section hes
    · intro hnone
      rw [Leaf.eq_standard_of_inSections hnone (hgood .minLines),
        Leaf.eq_standard_of_inSections hnone (hgood .maxWorkers)]
      rfl
    · intro inner hsome
      rw [Checked.map_eq_good_iff]
      refine ⟨(f .minLines, f .maxWorkers), Checked.both_eq_good_iff.mpr ⟨?_, ?_⟩, rfl⟩
      · exact Leaf.checkField_of_inSections hsome (hgood .minLines)
      · exact Leaf.checkField_of_inSections hsome (hgood .maxWorkers)
  have hlimits : checkField es "limits" .standard LimitSettings.check = .good ⟨f .maxFiles⟩ := by
    apply checkField_section hes
    · intro hnone
      rw [Leaf.eq_standard_of_inSections hnone (hgood .maxFiles)]
      rfl
    · intro inner hsome
      rw [Checked.map_eq_good_iff]
      exact ⟨f .maxFiles, Leaf.checkField_of_inSections hsome (hgood .maxFiles), rfl⟩
  unfold Settings.checkSections
  rw [hlogging, hextraction, hlimits]
  rfl

theorem settingsOf_sectioned {h : Homes} {f : (l : Leaf) → l.Of}
    (hgood : ∀ l : Leaf, l.inSections h es = .good (f l)) :
    settingsOf h es = .ok (.ofLeaves f) := by
  have htext : es.names.all isTextKey := by
    rw [List.all_eq_true]
    intro k hk
    obtain ⟨name, -, rfl⟩ := hes.names_mem k hk
    rfl
  have hstrict : Settings.checkStrictly h es = .good (.ofLeaves f) := by
    unfold Settings.checkStrictly
    rw [checkSections_sectioned hes hgood, checkNoExtras_sectioned hes]
    rfl
  unfold settingsOf
  rw [htext, hstrict]
  rfl

end Sections

end SourceOutline
