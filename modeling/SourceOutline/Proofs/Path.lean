import SourceOutline.Path
import SourceOutline.Proofs.Text.DecodedLines

/-! Paths and their texts. A path that was read from a text has no empty part, no single point and
no slash within a part; so its own text is read as the same path again, and paths with one text are
one path. -/
namespace SourceOutline.Path

def Normal (p : Path) : Prop := ∀ part ∈ p.parts, isPart part.toList ∧ '/' ∉ part.toList

theorem normal_ofString (s : String) : (ofString s).Normal := by
  intro part hpart
  obtain ⟨piece, hpiece, rfl⟩ := List.mem_map.mp hpart
  obtain ⟨hmem, hkept⟩ := List.mem_filter.mp hpiece
  rw [String.toList_ofList]
  exact ⟨hkept, Text.notMem_of_mem_cutAt hmem⟩

def joined (p : Path) : List Char := ['/'].intercalate (p.parts.map String.toList)

theorem toList_toString {p : Path} (h : p.joined ≠ []) :
    p.toString.toList = p.root.text.toList ++ p.joined := by
  have hlist : (p.root.text ++ String.intercalate "/" p.parts).toList =
      p.root.text.toList ++ p.joined := by
    rw [String.toList_append, String.toList_intercalate]
    rfl
  have hne : (p.root.text ++ String.intercalate "/" p.parts).isEmpty = false := by
    rw [Bool.eq_false_iff, ne_eq, String.isEmpty_iff, ← String.toList_eq_nil_iff, hlist]
    simp [h]
  unfold toString
  simp only [hne, Bool.false_eq_true, if_false]
  exact hlist

theorem Normal.head_joined {p : Path} (hp : p.Normal) (h : p.parts ≠ []) :
    ∃ c cs, p.joined = c :: cs ∧ c ≠ '/' := by
  obtain ⟨first, rest, hparts⟩ := List.exists_cons_of_ne_nil h
  obtain ⟨hpart, hslash⟩ := hp first (by simp [hparts])
  obtain ⟨more, hmore⟩ : ∃ more, p.joined = first.toList ++ more := by
    unfold joined
    rw [hparts]
    cases rest with
    | nil => exact ⟨[], by simp⟩
    | cons second rest =>
      exact ⟨_, by rw [List.map_cons, List.map_cons, List.intercalate_cons_cons, List.append_assoc]⟩
  cases hfirst : first.toList with
  | nil => simp [hfirst, isPart] at hpart
  | cons c cs =>
    exact ⟨c, cs ++ more, by simp [hmore, hfirst], fun hc => hslash (by simp [hfirst, hc])⟩

theorem ofString_root (root : PathRoot) {body : List Char} (h : ∃ c cs, body = c :: cs ∧ c ≠ '/') :
    rootOf (root.text.toList ++ body) = root ∧
      (Text.cutAt '/' (root.text.toList ++ body)).filter isPart =
        (Text.cutAt '/' body).filter isPart := by
  obtain ⟨c, cs, rfl, hc⟩ := h
  cases root with
  | relative => simp [PathRoot.text, rootOf, hc]
  | slash => simp [PathRoot.text, rootOf, hc, Text.cutStep, isPart]
  | doubleSlash => simp [PathRoot.text, rootOf, hc, Text.cutStep, isPart]

theorem Normal.ofString_toString {p : Path} (hp : p.Normal) : ofString p.toString = p := by
  by_cases hparts : p.parts = []
  · obtain ⟨root, parts⟩ := p
    cases hparts
    cases root <;> decide
  · have hhead := hp.head_joined hparts
    have hjoined : p.joined ≠ [] := by
      obtain ⟨c, cs, heq, -⟩ := hhead
      simp [heq]
    obtain ⟨hroot, hcut⟩ := ofString_root p.root hhead
    have hpieces : Text.cutAt '/' p.joined = p.parts.map String.toList := by
      rw [Text.cutAt_eq_splitOn]
      refine List.splitOn_intercalate '/' (fun piece hpiece => ?_) (by simpa using hparts)
      obtain ⟨part, hpart, rfl⟩ := List.mem_map.mp hpiece
      exact (hp part hpart).2
    have hkept : (p.parts.map String.toList).filter isPart = p.parts.map String.toList := by
      refine List.filter_eq_self.mpr fun piece hpiece => ?_
      obtain ⟨part, hpart, rfl⟩ := List.mem_map.mp hpiece
      exact (hp part hpart).1
    unfold ofString
    rw [toList_toString hjoined, hroot, hcut, hpieces, hkept, List.map_map]
    simp [Function.comp_def]

theorem Normal.eq_of_toString_eq {p q : Path} (hp : p.Normal) (hq : q.Normal)
    (h : p.toString = q.toString) : p = q := by
  rw [← hp.ofString_toString, h, hq.ofString_toString]

theorem ofString_of_isPart {name : String} (hpart : isPart name.toList)
    (hslash : '/' ∉ name.toList) : ofString name = ⟨.relative, [name]⟩ := by
  have hnormal : Normal ⟨.relative, [name]⟩ := List.forall_mem_singleton.mpr ⟨hpart, hslash⟩
  have hne : name.isEmpty = false := by
    rw [String.isEmpty_eq_false_iff]
    rintro rfl
    cases hpart
  have htext : toString ⟨.relative, [name]⟩ = name := by simp [toString, PathRoot.text, hne]
  have hread := hnormal.ofString_toString
  rwa [htext] at hread

end SourceOutline.Path
