import SourceOutline.Fault

/-! Line ranges and definitions, the entries of an outline. Lines are counted from zero and both
ends belong to the range; only the printed form counts from one. -/
namespace SourceOutline

structure LineRange where
  first : Int
  last : Int
deriving DecidableEq, Repr

def LineRange.size (r : LineRange) : Int :=
  r.last - r.first + 1

structure Definition where
  range : LineRange
  label : String
  ordered : range.first ≤ range.last

instance : DecidableEq Definition := fun a b =>
  if h : a.range = b.range ∧ a.label = b.label then
    .isTrue (by obtain ⟨_, _, _⟩ := a; obtain ⟨_, _, _⟩ := b; simp_all)
  else .isFalse (by rintro rfl; exact h ⟨rfl, rfl⟩)

namespace Definition

def make (range : LineRange) (label : String) : Except LineRange Definition :=
  if h : range.first ≤ range.last then .ok ⟨range, label, h⟩ else .error range

def lineCount (d : Definition) : Int := d.range.size

end Definition

def LineRange.invertedMessage (r : LineRange) : String :=
  s!"start_line ({r.first}) must not exceed end_line ({r.last})"

end SourceOutline
