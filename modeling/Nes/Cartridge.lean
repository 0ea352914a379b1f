import Nes.Board
import Nes.Cartridge.Image

/-!
# Cartridges

A cartridge is an image's header and trainer together with the board that its memories were put
on.

`ofBytes` is famicore's `from_bytes`, of which `ofImage` chooses the board; `loadPrgRam` is its
`load_prg_ram`.
-/

namespace Nes

structure Cartridge where
  header : Header
  trainer : Option (Array UInt8)
  board : Board

namespace Cartridge

def chrOf (image : Image) : Chr :=
  if image.header.chrIsRam then ⟨Array.replicate 0x2000 0, true⟩ else ⟨image.chr, false⟩

/-- The board that the header asks for, if it is known, with the image's memories on it. -/
def boardOf? (image : Image) : Option Board :=
  let chr := chrOf image
  match image.header.mapper with
  | 0 => some (.nrom ⟨image.prg, chr, image.header.mirroring⟩)
  | 2 => some (.uxrom (.powerOn image.prg chr.bytes image.header.mirroring))
  | 4 => some (.mmc3 (.powerOn image.prg chr image.header.mirroring))
  | _ => none

def ofImage (image : Image) : Except LoadError Cartridge :=
  match boardOf? image with
  | none => .error (.unsupportedMapper image.header.mapper)
  | some board =>
    if image.header.trainer then
      .ok ⟨image.header, some image.trainer, (board.loadTrainer image.trainer).2⟩
    else .ok ⟨image.header, none, board⟩

def ofBytes (data : Array UInt8) : Except LoadError Cartridge := do
  let image ← Image.parse data
  ofImage image

/-- Saved contents put over the memory at `$6000`; tells whether there is one. -/
def loadPrgRam (c : Cartridge) (saved : Array UInt8) : Bool × Cartridge :=
  match c.board.loadPrgRam saved with
  | (loaded, board) => (loaded, { c with board })

end Cartridge

end Nes
