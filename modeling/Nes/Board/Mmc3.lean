import Nes.Board.Chip
import Nes.Board.Mirroring
import Nes.Board.ScanlineCounter

/-!
# MMC3

Eight bank registers, written one at a time through a select register, place banks of program
and character memory into windows.  The windows are laid out anew by each write of bank data,
from all registers and the two mode bits as they then stand, and by nothing else.

This is famicore's `Mapper4`: `powerOn` is its `new`, `prgWindows`, `chrWindows` and
`Banks.layout` its `update_banks`, `chrOffset` its `chr_offset`, `clockScanline` its
`clock_scanline`, and `cpuRead`, `cpuWrite` with `writeRegister` and `writeRam`, `ppuRead` and
`ppuWrite` its `cpu_read`, `cpu_write`, `ppu_read` and `ppu_write`.
-/

namespace Nes.Mmc3

/-- The bank shown in each window: eight kilobytes of program memory from `$8000` on, one
kilobyte of character memory from `$0000` on. -/
structure Windows where
  prg : Vector Nat 4
  chr : Vector Nat 8
deriving DecidableEq, Repr

def Windows.powerOn (prgBanks : Nat) : Windows where
  prg := #v[0, 1 % prgBanks, prgBanks - 2, prgBanks - 1]
  chr := .replicate 8 0

/-- The select register's choice of the register to write and of the two layouts. -/
structure Select where
  index : Fin 8 := 0
  prgSwapped : Bool := false
  chrSwapped : Bool := false
deriving DecidableEq, Repr

def Select.ofByte (v : UInt8) : Select where
  index := Fin.ofNat 8 v.toNat
  prgSwapped := testBits v 0x40
  chrSwapped := testBits v 0x80

/-- Windows of program memory: registers six and seven and the last two banks. -/
def prgWindows (swapped : Bool) (banks : Nat) (r : Vector UInt8 8) : Vector Nat 4 :=
  let r6 := r[6].toNat % banks
  let r7 := r[7].toNat % banks
  if swapped then #v[banks - 2, r7, r6, banks - 1] else #v[r6, r7, banks - 2, banks - 1]

/-- Windows of character memory: two pairs of banks, from registers zero and one, and four
single banks, in either order. -/
def chrWindows (swapped : Bool) (banks : Nat) (r : Vector UInt8 8) : Vector Nat 8 :=
  let even (v : UInt8) : Nat := (v &&& 0xFE).toNat % banks
  let odd (v : UInt8) : Nat := (v ||| 0x01).toNat % banks
  let one (v : UInt8) : Nat := v.toNat % banks
  let pairs : Vector Nat 4 := #v[even r[0], odd r[0], even r[1], odd r[1]]
  let singles : Vector Nat 4 := #v[one r[2], one r[3], one r[4], one r[5]]
  if swapped then singles ++ pairs else pairs ++ singles

/-! ### Bank registers -/

/-- The bank registers, the choice of the one to write, and the windows last laid out. -/
structure Banks where
  select : Select := {}
  registers : Vector UInt8 8 := .replicate 8 0
  windows : Windows
deriving DecidableEq, Repr

namespace Banks

def layout (b : Banks) (prgBanks chrBanks : Nat) : Windows where
  prg := prgWindows b.select.prgSwapped prgBanks b.registers
  chr := chrWindows b.select.chrSwapped chrBanks b.registers

/-- Bank data: the selected register written and the windows laid out. -/
def write (b : Banks) (prgBanks chrBanks : Nat) (v : UInt8) : Banks :=
  let b := { b with registers := b.registers.set b.select.index v }
  { b with windows := b.layout prgBanks chrBanks }

@[simp] theorem windows_write (b : Banks) (prgBanks chrBanks : Nat) (v : UInt8) :
    (b.write prgBanks chrBanks v).windows =
      { prg := prgWindows b.select.prgSwapped prgBanks (b.registers.set b.select.index v)
        chr := chrWindows b.select.chrSwapped chrBanks (b.registers.set b.select.index v) } := rfl

end Banks

/-! ### Registers -/

/-- The registers behind `$8000`, told apart by the address's top three bits and its lowest. -/
inductive Register
  | bankSelect
  | bankData
  | mirroring
  | ramProtect
  | irqLatch
  | irqReload
  | irqDisable
  | irqEnable
deriving DecidableEq, Repr

@[inline] def Register.ofAddr (addr : UInt16) : Register :=
  let even := addr % 2 == 0
  if addr < 0xA000 then if even then bankSelect else bankData
  else if addr < 0xC000 then if even then mirroring else ramProtect
  else if addr < 0xE000 then if even then irqLatch else irqReload
  else if even then irqDisable else irqEnable

end Mmc3

structure Mmc3 where
  prg : Array UInt8
  chr : Chr
  ram : PrgRam
  mirroring : Mirroring
  banks : Mmc3.Banks
  ramEnabled : Bool
  ramProtected : Bool
  irq : ScanlineCounter

namespace Mmc3

@[inline] def prgBanks (b : Mmc3) : Nat := bankCount b.prg.size 0x2000

@[inline] def chrBanks (b : Mmc3) : Nat := bankCount b.chr.bytes.size 0x400

def powerOn (prg : Array UInt8) (chr : Chr) (mirroring : Mirroring) : Mmc3 where
  prg := prg
  chr := chr
  ram := .filled 0
  mirroring := mirroring
  banks := { windows := .powerOn (bankCount prg.size 0x2000) }
  ramEnabled := true
  ramProtected := false
  irq := {}

@[inline] def prgOffset (b : Mmc3) (addr : UInt16) : Nat :=
  have := Nat.mod_lt (addr.toNat / 0x2000) (show 0 < 4 by decide)
  b.banks.windows.prg[addr.toNat / 0x2000 % 4] * 0x2000 + addr.toNat % 0x2000

@[inline] def chrOffset (b : Mmc3) (addr : UInt16) : Nat :=
  have := Nat.mod_lt (addr.toNat / 0x400) (show 0 < 8 by decide)
  b.banks.windows.chr[addr.toNat / 0x400 % 8] * 0x400 + addr.toNat % 0x400

@[inline] def cpuRead (b : Mmc3) (addr : UInt16) : UInt8 :=
  if addr < 0x6000 then 0
  else if addr < 0x8000 then b.ram.get addr
  else romByte b.prg (b.prgOffset addr)

/-- A write to one of the registers.  What is written to `ramProtect` is kept and not enforced. -/
def writeRegister (b : Mmc3) (register : Register) (v : UInt8) : Mmc3 :=
  match register with
  | .bankSelect => { b with banks := { b.banks with select := .ofByte v } }
  | .bankData => { b with banks := b.banks.write b.prgBanks b.chrBanks v }
  | .mirroring => { b with mirroring := if testBits v 1 then .horizontal else .vertical }
  | .ramProtect => { b with ramEnabled := testBits v 0x80, ramProtected := testBits v 0x40 }
  | .irqLatch => { b with irq := b.irq.setLatch v }
  | .irqReload => { b with irq := b.irq.requestReload }
  | .irqDisable => { b with irq := b.irq.disable }
  | .irqEnable => { b with irq := b.irq.enable }

def writeRam (b : Mmc3) (addr : UInt16) (v : UInt8) : Mmc3 :=
  match b with
  | ⟨prg, chr, ram, mirroring, banks, enabled, guarded, irq⟩ =>
    ⟨prg, chr, ram.set addr v, mirroring, banks, enabled, guarded, irq⟩

@[inline] def cpuWrite (b : Mmc3) (addr : UInt16) (v : UInt8) : Mmc3 :=
  if addr < 0x6000 then b
  else if addr < 0x8000 then b.writeRam addr v
  else b.writeRegister (.ofAddr addr) v

@[inline] def ppuRead (b : Mmc3) (addr : UInt16) : UInt8 :=
  if addr < 0x2000 then b.chr.read (b.chrOffset addr) else 0

def ppuWrite (b : Mmc3) (addr : UInt16) (v : UInt8) : Mmc3 :=
  if addr < 0x2000 then
    let offset := b.chrOffset addr
    match b with
    | ⟨prg, chr, ram, mirroring, banks, enabled, guarded, irq⟩ =>
      ⟨prg, chr.write offset v, ram, mirroring, banks, enabled, guarded, irq⟩
  else b

def clockScanline (b : Mmc3) : Mmc3 := { b with irq := b.irq.clock }

end Mmc3

end Nes
