import Nes.Board.Mirroring
import Nes.Word

/-!
# Cartridge images

An image is sixteen bytes of header, a trainer of 512 bytes where the header says so, program
memory in units of sixteen kilobytes and character memory in units of eight.  Whatever follows
is ignored.  An image that is too short is refused at the first part that it does not hold.

`Header.parse` is `parse` of famicore's `CartridgeHeader`, `Image.part` its `slice`, and
`Image.parse` the part of its `from_bytes` that takes the image apart.
-/

namespace Nes

/-- The parts of an image, in file order. -/
inductive ImagePart
  | header
  | trainer
  | prg
  | chr
deriving DecidableEq, Repr

def ImagePart.name : ImagePart → String
  | header => "header"
  | trainer => "trainer"
  | prg => "PRG ROM"
  | chr => "CHR ROM"

/-- Why a cartridge cannot be loaded. -/
inductive LoadError
  | truncated (part : ImagePart) (expected found : Nat)
  | unsupportedMapper (id : UInt8)
  | unreadable (path : String)
deriving DecidableEq, Repr

def LoadError.message : LoadError → String
  | truncated part expected found =>
    "cartridge truncated in " ++ part.name ++ ": expected " ++ toString expected ++
      " bytes, found " ++ toString found
  | unsupportedMapper id => "unsupported mapper " ++ toString id.toNat
  | unreadable path => "failed to read " ++ path

/-- What the header says: sizes in units, the board's number, and flags. -/
structure Header where
  prgUnits : UInt8
  chrUnits : UInt8
  mapper : UInt8
  mirroring : Mirroring
  battery : Bool
  trainer : Bool
deriving DecidableEq, Repr

namespace Header

def size : Nat := 16

def magic : Array UInt8 := #[0x4E, 0x45, 0x53, 0x1A]

/-- Whether the image starts as it should; one that does not is read all the same. -/
def hasMagic (data : Array UInt8) : Bool := data.extract 0 4 == magic

/-- The sizes are in bytes four and five; six and seven hold the flags and, in their high
halves, the board's number. -/
def parse (data : Array UInt8) : Except LoadError Header :=
  if data.size < size then .error (.truncated .header size data.size)
  else
    let flags := data.getD 6 0
    .ok {
      prgUnits := data.getD 4 0
      chrUnits := data.getD 5 0
      mapper := (flags >>> 4) ||| (data.getD 7 0 &&& 0xF0)
      mirroring := if testBits flags 0x01 then .vertical else .horizontal
      battery := testBits flags 0x02
      trainer := testBits flags 0x04 }

def trainerSize (h : Header) : Nat := if h.trainer then 512 else 0

def prgSize (h : Header) : Nat := h.prgUnits.toNat * 0x4000

def chrSize (h : Header) : Nat := h.chrUnits.toNat * 0x2000

/-- A cartridge without character memory of its own has eight kilobytes to write to. -/
def chrIsRam (h : Header) : Bool := h.chrUnits == 0

end Header

/-- An image taken apart; `chr` is empty where the header gives no character memory. -/
structure Image where
  header : Header
  trainer : Array UInt8
  prg : Array UInt8
  chr : Array UInt8
deriving DecidableEq

namespace Image

/-- The `length` bytes from `offset` on, or the number of bytes that are there instead. -/
def part (data : Array UInt8) (which : ImagePart) (offset length : Nat) :
    Except LoadError (Array UInt8) :=
  if offset + length ≤ data.size then .ok (data.extract offset (offset + length))
  else .error (.truncated which length (data.size - offset))

def parse (data : Array UInt8) : Except LoadError Image := do
  let header ← Header.parse data
  let prgStart := Header.size + header.trainerSize
  let chrStart := prgStart + header.prgSize
  let trainer ← part data .trainer Header.size header.trainerSize
  let prg ← part data .prg prgStart header.prgSize
  let chr ← part data .chr chrStart header.chrSize
  pure { header, trainer, prg, chr }

theorem size_of_part {data bytes : Array UInt8} {which : ImagePart} {offset length : Nat}
    (h : part data which offset length = .ok bytes) : bytes.size = length := by
  unfold part at h
  split at h
  · injection h with h
    rw [← h, Array.size_extract]
    omega
  · cases h

end Image

end Nes
