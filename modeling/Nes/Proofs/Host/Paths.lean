import Mathlib.Data.List.TakeWhile
import Nes.Host.Path

/-!
# Names beside a name

A path is its folder and its name.  Every name put in the place of the path's own leads the same
way and differs in the last step alone.  Another extension gives another name, unless it is the one
that the name has.
-/

namespace Nes.Path

/-! ### Steps -/

end Nes.Path
