import Nes.Cartridge
import Nes.Notice

/-!
# What loading and banking report

The notices that go with a load are a function of the image alone, and those of a write to a
board a function of the address and of the board after the write.

famicore logs them in `parse` and `from_bytes`, and in `cpu_write` and `update_banks` of its
boards.
-/

namespace Nes

/-- What there is to tell about an image that was taken apart. -/
def Image.notices (image : Image) : List Notice :=
  [.memorySizes image.header, .boardSettings image.header] ++
    match Cartridge.boardOf? image with
    | some board =>
      if image.header.trainer && board.prgRam?.isNone then [.trainerDropped image.header.mapper]
      else []
    | none => []

/-- What there is to tell about the first bytes of an image. -/
def Header.notices (data : Array UInt8) : List Notice :=
  if Header.size ≤ data.size && !Header.hasMagic data then [.missingMagic] else []

/-- What there is to tell about the load of an image, however it ends. -/
def Cartridge.loadNotices (data : Array UInt8) : List Notice :=
  Header.notices data ++
    match Image.parse data with
    | .ok image => image.notices
    | .error _ => []

/-- What a processor's write to `addr` has to tell, given the board after it. -/
def Board.writeNotice? (after : Board) (addr : UInt16) : Option Notice :=
  match after with
  | .uxrom b => if addr < 0x8000 then none else some (.prgBank b.bank)
  | .mmc3 b =>
    if addr < 0x8000 then none
    else
      match Mmc3.Register.ofAddr addr with
      | .bankData => some (.bankWindows b.banks.windows)
      | _ => none
  | .nrom _ => none

end Nes
