import Nes.Memory

/-!
# Audio units

An audio unit answers at `$4000` to `$4017`, the controllers apart, and is stepped once per
instruction with the console's memory in view.

These are famicore's `AudioUnit` and, as `AudioLatch`, its `ApuRegisters`, with `register`,
`read`, `write` and `step`.
-/

namespace Nes

/-- The console's own memory. -/
abbrev ConsoleRam := Memory 0x800

class AudioUnit (α : Type) where
  read : α → UInt16 → UInt8 × α
  write : α → UInt16 → UInt8 → α
  step : α → ConsoleRam → α

/-- An audio unit that keeps what is written to it and makes no sound. -/
structure AudioLatch where
  registers : Vector UInt8 0x18 := .replicate 0x18 0
  steps : Nat := 0
deriving DecidableEq

namespace AudioLatch

/-- The last byte written to an address, if the unit has a register there. -/
def register? (l : AudioLatch) (addr : UInt16) : Option UInt8 :=
  if addr < 0x4000 then none else l.registers[addr.toNat - 0x4000]?

/-- Only the channel status at `$4015` can be read, and of it the five bits of the channels. -/
def read (l : AudioLatch) (addr : UInt16) : UInt8 :=
  if addr = 0x4015 then l.registers[0x15] &&& 0x1F else 0

def write (l : AudioLatch) (addr : UInt16) (v : UInt8) : AudioLatch :=
  if addr < 0x4000 then l
  else { l with registers := l.registers.setIfInBounds (addr.toNat - 0x4000) v }

def step (l : AudioLatch) : AudioLatch := { l with steps := l.steps + 1 }

instance : AudioUnit AudioLatch where
  read l addr := (l.read addr, l)
  write := write
  step l _ := l.step

end AudioLatch

end Nes
