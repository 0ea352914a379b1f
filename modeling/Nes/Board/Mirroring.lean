/-!
# Mirroring

How a board wires the nametables, which it tells and the picture unit does not apply.

famicore's boards tell it by `mirroring`.
-/

namespace Nes

inductive Mirroring
  | horizontal
  | vertical
deriving DecidableEq, Repr

def Mirroring.name : Mirroring → String
  | horizontal => "Horizontal"
  | vertical => "Vertical"

end Nes
