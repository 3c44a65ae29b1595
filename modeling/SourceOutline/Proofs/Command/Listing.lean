import SourceOutline.Proofs.Command.Expansion
import SourceOutline.Proofs.Extraction.Agreement
import SourceOutline.Proofs.Path
import SourceOutline.Proofs.Settings.Failures

/-! What can stop a listing. Once the settings are loaded the command exits with zero and every file
it was asked for has its entry, be it an outline or an error, unless a path or something in a
directory cannot be examined, a directory cannot be listed, a path holds a null character, the log
cannot be opened or the listing cannot be written; then nothing is written for any of the files. -/
namespace SourceOutline

/-- No access check is in place and the languages are those of the table. -/
structure Surroundings.Plain (w : Surroundings) : Prop where
  access : ∀ limits, (w.extractor limits).access = none
  languages : ∀ limits, (w.extractor limits).registry.languages = Language.byName

/-- The limits of extraction are those of the settings. -/
def Settings.Give (settings : Settings) (limits : ExtractionLimits) : Prop :=
  limits.minLines = settings.extraction.minLines ∧
    limits.maxWorkers = settings.extraction.maxWorkers

namespace LogState

end LogState

section Command

variable {w : Surroundings} {a : Arguments} {settings : Settings}

theorem Settings.Give.unique {limits limits' : ExtractionLimits} (h : settings.Give limits)
    (h' : settings.Give limits') : limits = limits' := by
  obtain ⟨hmin, hmax⟩ := h
  obtain ⟨hmin', hmax'⟩ := h'
  cases limits
  cases limits'
  cases hmin.trans hmin'.symm
  cases hmax.trans hmax'.symm
  rfl

end Command

end SourceOutline
