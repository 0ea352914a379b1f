import Nes.Board.Mmc3
import Nes.Board.Nrom
import Nes.Board.Uxrom

/-!
# Boards

The boards that a cartridge can hold.  The processor reaches a board from `$6000` on and the
picture unit below `$2000`; outside, reads give zero and writes are dropped.

This is famicore's `Board`, with `id`, `irq_pending`, `load_trainer`, `mirroring`, `prg_ram` and
the four accesses of its `Mapper`; `loadPrgRam` is `load_prg_ram` of its `Cartridge`, and
`clockScanline` the clock that its picture unit's `step` gives an MMC3.
-/

namespace Nes

inductive Board
  | nrom (board : Nrom)
  | uxrom (board : Uxrom)
  | mmc3 (board : Mmc3)

namespace Board

/-- The number that an image's header gives the board. -/
def id : Board → UInt8
  | nrom _ => 0
  | uxrom _ => 2
  | mmc3 _ => 4

@[inline] def cpuRead (b : Board) (addr : UInt16) : UInt8 :=
  if addr < 0x6000 then 0
  else
    match b with
    | nrom b => b.cpuRead addr
    | uxrom b => b.cpuRead addr
    | mmc3 b => b.cpuRead addr

@[inline] def cpuWrite (b : Board) (addr : UInt16) (v : UInt8) : Board :=
  if addr < 0x6000 then b
  else
    match b with
    | nrom b => nrom b
    | uxrom b => uxrom (b.cpuWrite addr v)
    | mmc3 b => mmc3 (b.cpuWrite addr v)

@[inline] def ppuRead (b : Board) (addr : UInt16) : UInt8 :=
  if addr < 0x2000 then
    match b with
    | nrom b => b.ppuRead addr
    | uxrom b => b.ppuRead addr
    | mmc3 b => b.ppuRead addr
  else 0

def ppuWrite (b : Board) (addr : UInt16) (v : UInt8) : Board :=
  if addr < 0x2000 then
    match b with
    | nrom b => nrom (b.ppuWrite addr v)
    | uxrom b => uxrom (b.ppuWrite addr v)
    | mmc3 b => mmc3 (b.ppuWrite addr v)
  else b

def mirroring : Board → Mirroring
  | nrom b => b.mirroring
  | uxrom b => b.mirroring
  | mmc3 b => b.mirroring

/-- The interrupt line, which only an MMC3 drives. -/
@[inline] def irqPending : Board → Bool
  | mmc3 b => b.irq.pending
  | _ => false

/-- The tick that the picture unit gives once per visible line. -/
def clockScanline : Board → Board
  | mmc3 b => mmc3 b.clockScanline
  | b => b

def prgRam? : Board → Option PrgRam
  | nrom _ => none
  | uxrom b => some b.ram
  | mmc3 b => some b.ram

def onPrgRam (b : Board) (f : PrgRam → PrgRam) : Board :=
  match b with
  | nrom b => nrom b
  | uxrom b => uxrom { b with ram := f b.ram }
  | mmc3 b => mmc3 { b with ram := f b.ram }

/-- A trainer put at `$7000`; a board without memory there, or with too little, drops it. -/
def loadTrainer (b : Board) (trainer : Array UInt8) : Bool × Board :=
  if b.prgRam?.isSome && 0x1000 + trainer.size ≤ 0x2000 then
    (true, b.onPrgRam (·.overlay 0x1000 trainer.toList))
  else (false, b)

/-- Saved contents put into the memory at `$6000`: a short save fills its front, and what does
not fit is ignored. -/
def loadPrgRam (b : Board) (saved : Array UInt8) : Bool × Board :=
  (b.prgRam?.isSome, b.onPrgRam (·.overlay 0 saved.toList))

@[simp] theorem prgRam?_onPrgRam (b : Board) (f : PrgRam → PrgRam) :
    (b.onPrgRam f).prgRam? = b.prgRam?.map f := by
  cases b <;> rfl

@[simp] theorem id_onPrgRam (b : Board) (f : PrgRam → PrgRam) : (b.onPrgRam f).id = b.id := by
  cases b <;> rfl

end Board

end Nes
