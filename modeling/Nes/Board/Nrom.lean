import Nes.Board.Chip
import Nes.Board.Mirroring

/-!
# NROM

No bank switching.  Sixteen kilobytes of program memory appear twice; any other size appears
once, from `$8000` on.

This is famicore's `Mapper0`, with its `cpu_read`, `ppu_read` and `ppu_write`; its `cpu_write`
does nothing.
-/

namespace Nes

structure Nrom where
  prg : Array UInt8
  chr : Chr
  mirroring : Mirroring

namespace Nrom

@[inline] def offset (b : Nrom) (addr : UInt16) : Nat :=
  if b.prg.size = 0x4000 then addr.toNat % 0x4000 else addr.toNat - 0x8000

@[inline] def cpuRead (b : Nrom) (addr : UInt16) : UInt8 :=
  if addr < 0x8000 then 0 else romByte b.prg (b.offset addr)

@[inline] def ppuRead (b : Nrom) (addr : UInt16) : UInt8 := b.chr.read addr.toNat

@[inline] def ppuWrite (b : Nrom) (addr : UInt16) (v : UInt8) : Nrom :=
  match b with
  | ⟨prg, chr, mirroring⟩ => ⟨prg, chr.write addr.toNat v, mirroring⟩

end Nrom

end Nes
