import Nes.Board.Chip
import Nes.Board.Mirroring

/-!
# UxROM

A write anywhere from `$8000` on selects the sixteen kilobyte bank that appears there; the last
bank is fixed at `$C000`.

This is famicore's `Mapper2`: `powerOn` is its `new`, `bankAt` the choice of a bank in its
`cpu_read`, and `cpuWrite`, `ppuRead` and `ppuWrite` are its `cpu_write`, `ppu_read` and
`ppu_write`.
-/

namespace Nes

structure Uxrom where
  prg : Array UInt8
  chr : Chr
  ram : PrgRam
  bank : Nat
  mirroring : Mirroring

namespace Uxrom

/-- The board at power on.  Character memory of eight kilobytes is taken for writable. -/
def powerOn (prg chr : Array UInt8) (mirroring : Mirroring) : Uxrom where
  prg := prg
  chr := ⟨chr, chr.size == 0x2000⟩
  ram := .filled 0
  bank := 0
  mirroring := mirroring

@[inline] def banks (b : Uxrom) : Nat := bankCount b.prg.size 0x4000

@[inline] def bankAt (b : Uxrom) (addr : UInt16) : Nat :=
  if addr < 0xC000 then b.bank else b.banks - 1

@[inline] def cpuRead (b : Uxrom) (addr : UInt16) : UInt8 :=
  if addr < 0x6000 then 0
  else if addr < 0x8000 then b.ram.get addr
  else romByte b.prg (b.bankAt addr * 0x4000 + addr.toNat % 0x4000)

@[inline] def cpuWrite (b : Uxrom) (addr : UInt16) (v : UInt8) : Uxrom :=
  if addr < 0x6000 then b
  else if addr < 0x8000 then
    match b with
    | ⟨prg, chr, ram, bank, mirroring⟩ => ⟨prg, chr, ram.set addr v, bank, mirroring⟩
  else { b with bank := v.toNat % b.banks }

@[inline] def ppuRead (b : Uxrom) (addr : UInt16) : UInt8 := b.chr.read addr.toNat

@[inline] def ppuWrite (b : Uxrom) (addr : UInt16) (v : UInt8) : Uxrom :=
  match b with
  | ⟨prg, chr, ram, bank, mirroring⟩ => ⟨prg, chr.write addr.toNat v, ram, bank, mirroring⟩

end Uxrom

end Nes
