import Nes.Word

/-!
# Eight bit buses

A bus answers reads and takes writes of single bytes.  A read may change the devices behind it,
so both return the bus after the access.  Words are read low byte first; the pointers of the
two indirect modes are read within page zero.

`readWord`, `indexedIndirect` and `indirectIndexed` are `read_word`, `read_indirect_x` and
`read_indirect_y` of famicore's `Bus`.
-/

namespace Nes

/-- A device that the processor can address. -/
class Bus (β : Type) where
  read : β → UInt16 → UInt8 × β
  write : β → UInt16 → UInt8 → β

namespace Bus

variable {β : Type} [Bus β]

/-- The word whose bytes lie at `low` and `high`, read in this order. -/
@[inline] def readPair (bus : β) (low high : UInt16) : UInt16 × β :=
  match read bus low with
  | (lo, bus) =>
    match read bus high with
    | (hi, bus) => (Word.ofBytes lo hi, bus)

@[inline] def readWord (bus : β) (addr : UInt16) : UInt16 × β := readPair bus addr (addr + 1)

/-- The word at a pointer whose two bytes both lie in page zero. -/
@[inline] def readZeroPage (bus : β) (ptr : UInt8) : UInt16 × β :=
  readPair bus ptr.toUInt16 (ptr + 1).toUInt16

/-- The word at a pointer whose two bytes both lie in the pointer's own page. -/
@[inline] def readInPage (bus : β) (ptr : UInt16) : UInt16 × β :=
  readPair bus ptr (Word.nextInPage ptr)

/-- The address reached through the pointer at `zp + x`. -/
@[inline] def indexedIndirect (bus : β) (zp x : UInt8) : UInt16 × β := readZeroPage bus (zp + x)

/-- The address `y` bytes after the one that the pointer at `zp` holds, and that one. -/
@[inline] def indirectIndexed (bus : β) (zp y : UInt8) : (UInt16 × UInt16) × β :=
  match readZeroPage bus zp with
  | (base, bus) => ((base + y.toUInt16, base), bus)

end Bus

end Nes
