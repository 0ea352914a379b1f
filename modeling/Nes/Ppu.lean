import Nes.Board
import Nes.Ppu.Background
import Nes.Ppu.Beam
import Nes.Ppu.Scroll

/-!
# The picture unit

A tick moves the beam by one dot.  The vertical blank begins and ends at fixed dots, and the
whole background is drawn at the dot that finishes a frame.  The processor reaches the unit
through eight registers: control and mask, status, scroll and address, and a data register whose
reads lag one behind outside the palette.

famicore's `PPU`: `tick` and `step` are its `step`, with the two events named `enterVblank` and
`leaveVblank` and its `render_background` in `finishFrame`; `readData`, `writeData` and
`readStatus` are its `read_data`, `write_data` and `read_status`, `fetch` its `vram_read`,
`rendering` its `rendering_enabled`, and `readRegister`, `writeRegister`, `takeNmi` and
`takeFrameReady` its `read_register`, `write_register`, `take_nmi` and `take_frame_ready`.
-/

namespace Nes

structure Ppu where
  beam : Beam := {}
  scroll : Scroll := {}
  vblank : Bool := false
  nmi : Bool := false
  frameReady : Bool := false
  control : UInt8 := 0
  mask : UInt8 := 0
  buffer : UInt8 := 0
  vram : Memory 0x4000 := .filled 0
  palette : PaletteRam := .filled 0
  frame : Frame := .blank

namespace Ppu

def powerOn : Ppu := {}

/-! ### The dot clock -/

@[inline] def nmiEnabled (ppu : Ppu) : Bool := testBits ppu.control 0x80

@[inline] def rendering (ppu : Ppu) : Bool := testBits ppu.mask 0x18

def background (ppu : Ppu) : Background where
  vram := ppu.vram.toArray
  palette := ppu.palette
  v := ppu.scroll.v
  fineX := ppu.scroll.fineX
  patternBase := if testBits ppu.control 0x10 then 0x1000 else 0

/-- The vertical blank begins, and with it the interrupt if it is enabled now. -/
def enterVblank (ppu : Ppu) : Ppu := { ppu with vblank := true, nmi := ppu.nmi || ppu.nmiEnabled }

/-- The vertical blank ends; a picture that is drawn starts from the gathered position. -/
def leaveVblank (ppu : Ppu) : Ppu :=
  let ppu := { ppu with vblank := false, nmi := false }
  if ppu.rendering then { ppu with scroll := ppu.scroll.restart } else ppu

def finishFrame (ppu : Ppu) (board : Board) : Ppu :=
  { ppu with frame := ppu.background.render board.ppuRead, frameReady := true }

@[inline] def tick (ppu : Ppu) (board : Board) : Ppu :=
  let ppu := { ppu with beam := ppu.beam.next }
  if ppu.beam.atVblank then ppu.enterVblank
  else if ppu.beam.atPreRender then ppu.leaveVblank
  else if ppu.beam.atFrame then ppu.finishFrame board
  else ppu

/-- One dot of the unit beside its board, which is clocked as each visible line begins. -/
@[inline] def step (ppu : Ppu) (board : Board) : Ppu × Board :=
  let ppu := ppu.tick board
  (ppu, if ppu.beam.atVisibleLine then board.clockScanline else board)

/-- The interrupt latch, which taking clears. -/
@[inline] def takeNmi (ppu : Ppu) : Bool × Ppu :=
  if ppu.nmi then (true, { ppu with nmi := false }) else (false, ppu)

@[inline] def takeFrameReady (ppu : Ppu) : Bool × Ppu :=
  if ppu.frameReady then (true, { ppu with frameReady := false }) else (false, ppu)

/-! ### The data register -/

/-- The address of the data register, fourteen bits wide. -/
@[inline] def dataAddr (ppu : Ppu) : UInt16 := ppu.scroll.v &&& 0x3FFF

@[inline] def dataStep (ppu : Ppu) : UInt16 := if testBits ppu.control 0x04 then 32 else 1

/-- The byte behind the data register: patterns are on the board, the rest in the unit's memory. -/
def fetch (ppu : Ppu) (board : Board) (addr : UInt16) : UInt8 :=
  if addr < 0x2000 then board.ppuRead addr else ppu.vram.get addr

/-- Reads outside the palette give the byte that the read before fetched; palette reads answer at
once and fetch the byte of the nametable underneath. -/
def readData (ppu : Ppu) (board : Board) : UInt8 × Ppu :=
  let addr := ppu.dataAddr
  let scroll := ppu.scroll.advance ppu.dataStep
  if addr < 0x3F00 then (ppu.buffer, { ppu with scroll, buffer := ppu.fetch board addr })
  else
    (ppu.palette.get (Palette.cell addr),
      { ppu with scroll, buffer := ppu.fetch board (addr - 0x1000) })

def setVram (ppu : Ppu) (addr : UInt16) (b : UInt8) : Ppu :=
  match ppu with
  | ⟨beam, scroll, vblank, nmi, ready, control, mask, buffer, vram, palette, frame⟩ =>
    ⟨beam, scroll, vblank, nmi, ready, control, mask, buffer, vram.set addr b, palette, frame⟩

def setPalette (ppu : Ppu) (addr : UInt16) (b : UInt8) : Ppu :=
  { ppu with palette := ppu.palette.set (Palette.cell addr) b }

def writeData (ppu : Ppu) (board : Board) (b : UInt8) : Ppu × Board :=
  let addr := ppu.dataAddr
  let ppu := { ppu with scroll := ppu.scroll.advance ppu.dataStep }
  if addr < 0x2000 then (ppu, board.ppuWrite addr b)
  else if addr < 0x3F00 then (ppu.setVram addr b, board)
  else (ppu.setPalette addr b, board)

/-! ### Registers -/

/-- The status byte; reading it ends the vertical blank early and clears the toggle. -/
def readStatus (ppu : Ppu) : UInt8 × Ppu :=
  (bitIf ppu.vblank 0x80, { ppu with vblank := false, scroll := ppu.scroll.clearToggle })

/-- A read of a register, of whose number three bits count. -/
def readRegister (ppu : Ppu) (board : Board) (number : UInt8) : UInt8 × Ppu :=
  match number &&& 7 with
  | 2 => ppu.readStatus
  | 7 => ppu.readData board
  | _ => (0, ppu)

/-- A write to a register, of whose number three bits count. -/
def writeRegister (ppu : Ppu) (board : Board) (number b : UInt8) : Ppu × Board :=
  match number &&& 7 with
  | 0 => ({ ppu with control := b, scroll := ppu.scroll.writeControl b }, board)
  | 1 => ({ ppu with mask := b }, board)
  | 5 => ({ ppu with scroll := ppu.scroll.writePosition b }, board)
  | 6 => ({ ppu with scroll := ppu.scroll.writeAddress b }, board)
  | 7 => ppu.writeData board b
  | _ => (ppu, board)

end Ppu

end Nes
