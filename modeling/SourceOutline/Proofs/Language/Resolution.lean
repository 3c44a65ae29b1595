import Mathlib
import SourceOutline.Language.Table
import SourceOutline.Proofs.Path
import SourceOutline.Proofs.Text.Case

/-! How the language of a file is found. The extension is cut from the name as it is written and
lowered afterwards, while the whole name is lowered at once. The two orders could differ by a sigma
only, and no extension in the table has one; so the lower case of the name decides, and no directory
does. -/
namespace SourceOutline

namespace Path

/-- The suffix of a name: what stands from its last point on, if that is neither the first character
nor the last. -/
def suffixOf (name : List Char) : List Char :=
  let place := name.length - 1 - name.reverse.idxOf '.'
  if '.' ∈ name ∧ 0 < place ∧ place < name.length - 1 then name.drop place else []

def loweredSuffix (p : Path) : String :=
  String.ofList ((Text.lowerChars (suffixOf p.name.toList)).dropWhile (· == '.'))

theorem name_cases (name : List Char) :
    '.' ∉ name ∨ ∃ stem tail, name = stem ++ '.' :: tail ∧ '.' ∉ tail := by
  by_cases h : '.' ∈ name
  · obtain ⟨before, after, heq, hnot⟩ := List.eq_append_cons_of_mem (List.mem_reverse.mpr h)
    refine .inr ⟨after.reverse, before.reverse, ?_, by simpa using hnot⟩
    rw [← List.reverse_reverse name, heq]
    simp
  · exact .inl h

theorem takeWhile_reverse_of_notMem {tail : List Char} (h : '.' ∉ tail) (rest : List Char) :
    (tail.reverse ++ rest).takeWhile (· != '.') = tail.reverse ++ rest.takeWhile (· != '.') := by
  refine List.takeWhile_append_of_pos fun c hc => ?_
  rw [bne_iff_ne]
  rintro rfl
  exact h (List.mem_reverse.mp hc)

theorem extensionOf_of_notMem {name : List Char} (h : '.' ∉ name) : extensionOf name = [] := by
  have hwhole := takeWhile_reverse_of_notMem h []
  simp only [List.append_nil, List.takeWhile_nil] at hwhole
  simp [extensionOf, hwhole]

theorem extensionOf_append (stem : List Char) {tail : List Char} (h : '.' ∉ tail) :
    extensionOf (stem ++ '.' :: tail) = if stem = [] then [] else tail := by
  have hreverse : (stem ++ '.' :: tail).reverse = tail.reverse ++ '.' :: stem.reverse := by simp
  have htail := takeWhile_reverse_of_notMem h ('.' :: stem.reverse)
  unfold extensionOf
  rw [hreverse, htail]
  cases stem <;> simp

theorem suffixOf_of_notMem {name : List Char} (h : '.' ∉ name) : suffixOf name = [] := by
  simp [suffixOf, h]

theorem suffixOf_append (stem : List Char) {tail : List Char} (h : '.' ∉ tail) :
    suffixOf (stem ++ '.' :: tail) = if stem = [] ∨ tail = [] then [] else '.' :: tail := by
  have hindex : (stem ++ '.' :: tail).reverse.idxOf '.' = tail.length := by
    rw [List.reverse_append, List.reverse_cons, List.append_assoc,
      List.idxOf_append_of_notMem (by simpa using h)]
    simp
  have hplace : (stem ++ '.' :: tail).length - 1 - (stem ++ '.' :: tail).reverse.idxOf '.' =
      stem.length := by
    rw [hindex, List.length_append, List.length_cons]
    omega
  unfold suffixOf
  rw [hplace]
  cases stem with
  | nil => simp
  | cons c stem => cases tail <;> simp

theorem loweredSuffix_eq (p : Path) : p.loweredSuffix = Text.lower p.extension := by
  unfold loweredSuffix extension Text.lower
  rw [String.toList_ofList]
  congr 1
  rcases name_cases p.name.toList with hnone | ⟨stem, tail, hname, htail⟩
  · rw [suffixOf_of_notMem hnone, extensionOf_of_notMem hnone]
    rfl
  · rw [hname, suffixOf_append stem htail, extensionOf_append stem htail]
    by_cases hstem : stem = []
    · simp [hstem, Text.lowerChars, Text.lowerAfter]
    · by_cases hempty : tail = []
      · simp [hempty, Text.lowerChars, Text.lowerAfter]
      · have hpoint : '.' ∉ Text.lowerChars tail := mt Text.point_mem_lowerAfter_iff.mp htail
        rw [if_neg (by simp [hstem, hempty]), if_neg hstem, Text.lowerChars_point,
          List.dropWhile_cons_of_pos (by decide)]
        cases hlowered : Text.lowerChars tail with
        | nil => rfl
        | cons c cs =>
          rw [hlowered] at hpoint
          refine List.dropWhile_cons_of_neg ?_
          rw [beq_iff_eq]
          rintro rfl
          exact hpoint (.head _)

theorem extensionOf_lowerChars (name : List Char) :
    ∃ before, extensionOf (Text.lowerChars name) = Text.lowerAfter before (extensionOf name) := by
  rcases name_cases name with hnone | ⟨stem, tail, rfl, htail⟩
  · have hlowered : '.' ∉ Text.lowerChars name := mt Text.point_mem_lowerAfter_iff.mp hnone
    refine ⟨[], ?_⟩
    rw [extensionOf_of_notMem hnone, extensionOf_of_notMem hlowered]
    rfl
  · obtain ⟨out, hout, hnil⟩ := Text.lowerAfter_append [] stem ('.' :: tail)
    have hlowered : Text.lowerChars (stem ++ '.' :: tail) =
        out ++ '.' :: Text.lowerAfter ('.' :: (stem.reverse ++ [])) tail := hout
    refine ⟨'.' :: (stem.reverse ++ []), ?_⟩
    rw [hlowered, extensionOf_append out (mt Text.point_mem_lowerAfter_iff.mp htail),
      extensionOf_append stem htail]
    by_cases hstem : stem = []
    · rw [if_pos hstem, if_pos (hnil.mpr hstem)]
      rfl
    · rw [if_neg hstem, if_neg (mt hnil.mp hstem)]

theorem name_ofString {s name : String} {before after : List (List Char)}
    (hpieces : Text.cutAt '/' s.toList = before ++ name.toList :: after)
    (hpart : isPart name.toList) (hafter : ∀ piece ∈ after, isPart piece = false) :
    (ofString s).name = name := by
  have hrest : after.filter isPart = [] := List.filter_eq_nil_iff.mpr fun piece hpiece => by
    simp [hafter piece hpiece]
  unfold Path.name ofString
  rw [hpieces, List.filter_append, List.filter_cons_of_pos hpart, hrest]
  simp

end Path

namespace Language

theorem extensions_without_sigma : ∀ e ∈ allExtensions, 'ς' ∉ e.toList ∧ 'σ' ∉ e.toList := by
  decide +kernel

theorem nodup_allExtensions : allExtensions.Nodup := by decide +kernel

theorem nodup_filenames : (table.flatMap (·.filenames)).Nodup := by decide +kernel

theorem find?_of_mem {languages : List Language} {kept : Language → List String}
    (hnodup : (languages.flatMap kept).Nodup) {l : Language} (hl : l ∈ languages) {text : String}
    (htext : text ∈ kept l) : languages.find? (fun m => (kept m).contains text) = some l := by
  obtain ⟨-, hapart⟩ := List.nodup_flatMap.mp hnodup
  cases hfound : languages.find? (fun m => (kept m).contains text) with
  | none => simpa [htext] using List.find?_eq_none.mp hfound l hl
  | some m =>
    have hm : text ∈ kept m := by simpa using List.find?_some hfound
    by_contra hne
    have hml : m ≠ l := fun heq => hne (heq ▸ rfl)
    have : Std.Symm (Function.onFun List.Disjoint kept) := ⟨fun _ _ h => h.symm⟩
    exact hapart.forall (List.mem_of_find?_eq_some hfound) hl hml hm htext

theorem find?_eq_none_of_notMem {languages : List Language} {kept : Language → List String}
    {text : String} (h : text ∉ languages.flatMap kept) :
    languages.find? (fun m => (kept m).contains text) = none := by
  rw [List.find?_eq_none]
  intro l hl hcontains
  exact h (List.mem_flatMap.mpr ⟨l, hl, by simpa using hcontains⟩)

theorem forPath?_eq (p : Path) :
    forPath? p = (table.find? (·.extensions.contains p.loweredSuffix)).or
    (table.find? (·.filenames.contains (Text.lower p.name))) := by
  unfold forPath? forExtension? forFilename?
  rw [p.loweredSuffix_eq]
  split
  · rename_i hempty
    have hnone : Text.lower p.extension ∉ allExtensions := by
      rw [String.isEmpty_iff.mp hempty]
      decide +kernel
    rw [find?_eq_none_of_notMem hnone]
  · rfl

theorem lowerAfter_mem_extensions {l : Language} (hl : l ∈ table) {before cs : List Char}
    (h : String.ofList (Text.lowerAfter before cs) ∈ l.extensions) (before' : List Char) :
    String.ofList (Text.lowerAfter before' cs) ∈ l.extensions := by
  obtain ⟨hfinal, hsmall⟩ := extensions_without_sigma _ (List.mem_flatMap.mpr ⟨l, hl, h⟩)
  rw [String.toList_ofList] at hfinal hsmall
  rwa [(Text.lowerAfter_eq_iff hfinal hsmall before before' cs).mp rfl]

/-- The lower case of the name decides: an extension that is cut from it is the lower case of the
extension, or no language has either of them. -/
theorem forPath?_eq_of_lower (p : Path) :
    forPath? p =
      (table.find?
        (·.extensions.contains (String.ofList (Path.extensionOf (Text.lower p.name).toList)))).or
      (table.find? (·.filenames.contains (Text.lower p.name))) := by
  have hsame : table.find? (·.extensions.contains (Text.lower p.extension)) =
      table.find?
        (·.extensions.contains (String.ofList (Path.extensionOf (Text.lower p.name).toList))) := by
    refine List.find?_congr fun l hl => ?_
    obtain ⟨before, hbefore⟩ := Path.extensionOf_lowerChars p.name.toList
    have hlower :
        Text.lower p.extension =
      String.ofList (Text.lowerAfter [] (Path.extensionOf p.name.toList)) := by
      simp [Text.lower, Text.lowerChars, Path.extension]
    rw [Bool.eq_iff_iff, List.contains_iff_mem, List.contains_iff_mem, hlower, Text.lower,
      String.toList_ofList, hbefore]
    exact ⟨fun h => lowerAfter_mem_extensions hl h before,
      fun h => lowerAfter_mem_extensions hl h []⟩
  rw [forPath?_eq, p.loweredSuffix_eq, hsame]

theorem isSome_forPath?_iff (p : Path) :
    (forPath? p).isSome ↔ p.loweredSuffix ∈ allExtensions ∨
      ∃ l ∈ table, Text.lower p.name ∈ l.filenames := by
  rw [forPath?_eq, Option.isSome_or, Bool.or_eq_true, List.find?_isSome, List.find?_isSome]
  simp [allExtensions]

/-- The language of a file goes by the last part of its path and by nothing else in it, and letter
case does not matter. A file has a language exactly if the lower case of its suffix or of its whole
name is in the table, and the suffix goes first. -/
theorem language_by_lowered_name :
    (∀ s t : String, Text.lower (Path.ofString s).name = Text.lower (Path.ofString t).name →
        forPath? (.ofString s) = forPath? (.ofString t)) ∧
      (∀ (s name : String) (before after : List (List Char)),
        Text.cutAt '/' s.toList = before ++ name.toList :: after →
        Path.isPart name.toList → (∀ piece ∈ after, Path.isPart piece = false) →
        forPath? (.ofString s) = forPath? (.ofString name)) ∧
      ∀ s : String, let p := Path.ofString s
        ((forPath? p).isSome ↔ p.loweredSuffix ∈ allExtensions ∨ ∃ l ∈ table,
          Text.lower p.name ∈ l.filenames) ∧
          (∀ l ∈ table, p.loweredSuffix ∈ l.extensions → forPath? p = some l) ∧
          (p.loweredSuffix ∉ allExtensions → ∀ l ∈ table, Text.lower p.name ∈ l.filenames →
            forPath? p = some l) := by
  have hsame : ∀ p q : Path, Text.lower p.name = Text.lower q.name → forPath? p = forPath? q := by
    intro p q h
    rw [forPath?_eq_of_lower p, forPath?_eq_of_lower q, h]
  refine ⟨fun s t h => hsame _ _ h, fun s name before after hpieces hpart hafter => hsame _ _ ?_,
    fun s => ?_⟩
  · have hslash : '/' ∉ name.toList :=
      Text.notMem_of_mem_cutAt (hpieces ▸ List.mem_append_right _ (.head _))
    rw [Path.name_ofString hpieces hpart hafter, Path.ofString_of_isPart hpart hslash]
    rfl
  · intro p
    refine ⟨isSome_forPath?_iff p, fun l hl hext => ?_, fun hnone l hl hname => ?_⟩
    · rw [forPath?_eq, find?_of_mem nodup_allExtensions hl hext]
      rfl
    · rw [forPath?_eq, find?_eq_none_of_notMem hnone, find?_of_mem nodup_filenames hl hname]
      rfl

/-- The sign for kelvins stands for the letter in an extension, and a known name may be written in
capitals. -/
theorem language_by_lowered_name_kelvin :
    let s := "/Src//Main.\u212AT/./"
    Text.lower (Path.ofString s).name = Text.lower (Path.ofString "main.kt").name ∧
      forPath? (.ofString s) = forPath? (.ofString "main.kt") ∧
      forPath? (.ofString s) = forPath? (.ofString "Main.\u212AT") ∧
      (∃ l ∈ table, l.name = "kotlin" ∧ forPath? (.ofString s) = some l) ∧
      ∃ l ∈ table, l.name = "ruby" ∧ forPath? (.ofString "lib/GEMFILE") = some l := by
  intro s
  obtain ⟨hsame, hplace, hrule⟩ := language_by_lowered_name
  have hlower : Text.lower (Path.ofString s).name = Text.lower (Path.ofString "main.kt").name := by
    decide +kernel
  have hpieces : Text.cutAt '/' s.toList = [[], "Src".toList, []] ++ "Main.\u212AT".toList ::
      [['.'], []] := by decide +kernel
  have hkotlin : 7 < table.length := by decide
  have hruby : 13 < table.length := by decide
  have hsuffix : (Path.ofString s).loweredSuffix = "kt" := by decide +kernel
  have hname : Text.lower (Path.ofString "lib/GEMFILE").name = "gemfile" := by decide +kernel
  refine ⟨hlower, hsame _ _ hlower, hplace s _ _ _ hpieces (by decide +kernel) (by decide), ?_, ?_⟩
  · refine ⟨table[7], List.getElem_mem hkotlin, rfl, (hrule s).2.1 _ (List.getElem_mem hkotlin) ?_⟩
    rw [hsuffix]
    exact .head _
  · refine ⟨table[13], List.getElem_mem hruby, rfl,
      (hrule _).2.2 (by decide +kernel) _ (List.getElem_mem hruby) ?_⟩
    rw [hname]
    exact .tail _ (.head _)

end Language

end SourceOutline
