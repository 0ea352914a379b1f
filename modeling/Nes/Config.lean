/-!
# Options of a run

How many dots the picture unit draws while the processor runs an instruction, and what else a run
of the console can be told.

`Timing.dots` is famicore's `ppu_dots`.
-/

namespace Nes

inductive Timing
  | instruction
  | cycle
deriving DecidableEq, Repr

namespace Timing

/-- Three dots to an instruction, or three to each of its cycles. -/
@[inline] def dots (timing : Timing) (cycles : Nat) : Nat :=
  match timing with
  | instruction => 3
  | cycle => cycles * 3

def name : Timing → String
  | instruction => "instruction"
  | cycle => "cycle"

/-- The timing of a name, the case of its letters counting or not. -/
def ofName? (ignoreCase : Bool) (text : String) : Option Timing :=
  let text := if ignoreCase then text.map Char.toLower else text
  [instruction, cycle].find? (·.name == text)

end Timing

/-- The options of a run. -/
structure Config where
  timing : Timing := .instruction
  scale : Nat := 2
  frameLimit : Option Nat := none
  headless : Bool := false
  saveBattery : Bool := true
deriving DecidableEq, Repr, Inhabited

end Nes
