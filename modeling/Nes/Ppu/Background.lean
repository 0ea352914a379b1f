import Nes.Ppu.Palette

/-!
# The background

Four nametables of 32 by 30 tiles lie two by two; the picture is the part of 256 by 240 pixels
that starts at the scroll position.  `Background.colourAt` gives each pixel by itself;
`Background.render` draws line by line and fetches each tile once for its eight pixels.

`render` and `vramAt` are famicore's `render` and `vram_at`, `line` is one turn of the outer loop
of `render`, and `Frame.rgba` is its `frame_rgba`.
-/

namespace Nes

abbrev Frame := Array Pixel

namespace Frame

def width : Nat := 256
def height : Nat := 240

def blank : Frame := Array.replicate (width * height) 0

def channels (p : Pixel) : Array UInt8 :=
  #[(p / 0x10000).toUInt8, (p / 0x100).toUInt8, p.toUInt8, (p / 0x1000000).toUInt8]

def rgba (frame : Frame) : Array UInt8 := frame.flatMap channels

end Frame

/-- What the background is drawn from, the patterns apart.  Nametable memory of any size repeats
through its address space. -/
structure Background where
  vram : Array UInt8
  palette : PaletteRam
  v : UInt16
  fineX : UInt8
  patternBase : UInt16

/-- Eight pixels of a tile: two planes of bits, and the palette that they choose from. -/
structure TileRow where
  low : UInt8
  high : UInt8
  group : UInt8
deriving DecidableEq, Repr

/-- The two bit value of a pixel, counted from the left. -/
@[inline] def TileRow.value (r : TileRow) (i : Nat) : UInt8 :=
  let bit : UInt8 := 7 - UInt8.ofNat i
  ((r.high >>> bit) &&& 1) * 2 + ((r.low >>> bit) &&& 1)

namespace Background

/-! ### The scroll position -/

def coarseX (bg : Background) : Nat := bg.v.toNat % 32

def coarseY (bg : Background) : Nat := bg.v.toNat / 32 % 32

def nametable (bg : Background) : Nat := bg.v.toNat / 1024 % 4

def fineY (bg : Background) : Nat := bg.v.toNat / 4096 % 8

/-- The column of tiles that a pixel lies in, counted from the first nametable's left edge. -/
def column (bg : Background) (px : Nat) : Nat := bg.coarseX + (px + bg.fineX.toNat) / 8

/-- The row of tiles that a line lies in, counted from the first nametable's upper edge. -/
def row (bg : Background) (py : Nat) : Nat := bg.coarseY + (py + bg.fineY) / 8

/-! ### Tiles -/

@[inline] def vramAt (bg : Background) (addr : Nat) : UInt8 :=
  bg.vram.getD (addr % bg.vram.size) 0

/-- Where the nametable of a tile starts: past the right edge lies the next table, and past the
lower edge the one after that. -/
def tableBase (bg : Background) (row column : Nat) : Nat :=
  0x2000 + (bg.nametable + row / 30 * 2 + column / 32) % 4 * 0x400

def groupAt (bg : Background) (row column : Nat) : UInt8 :=
  let y := row % 30
  let x := column % 32
  let byte := bg.vramAt (bg.tableBase row column + 0x3C0 + y / 4 * 8 + x / 4)
  (byte >>> UInt8.ofNat (y % 4 / 2 * 4 + x % 4 / 2 * 2)) &&& 3

/-- Line `line` of the tile at `row` and `column`. -/
def tileRow (bg : Background) (chr : UInt16 → UInt8) (row line column : Nat) : TileRow :=
  let tile := bg.vramAt (bg.tableBase row column + row % 30 * 32 + column % 32)
  let addr := bg.patternBase + tile.toUInt16 * 16 + UInt16.ofNat line
  { low := chr addr, high := chr (addr + 8), group := bg.groupAt row column }

/-! ### Pixels -/

/-- The colour of a two bit value; zero is the same in every palette. -/
@[inline] def paint (bg : Background) (group value : UInt8) : Pixel :=
  if value = 0 then Palette.colour (bg.palette.get 0)
  else Palette.colour (bg.palette.get (Palette.cell (group * 4 + value).toUInt16))

def colourAt (bg : Background) (chr : UInt16 → UInt8) (px py : Nat) : Pixel :=
  let tile := bg.tileRow chr (bg.row py) ((py + bg.fineY) % 8) (bg.column px)
  bg.paint tile.group (tile.value ((px + bg.fineX.toNat) % 8))

def tilePixels (bg : Background) (tile : TileRow) : List Pixel :=
  (List.range 8).map fun i => bg.paint tile.group (tile.value i)

/-- A line of the picture, cut out of the 33 tiles that it can touch. -/
def line (bg : Background) (chr : UInt16 → UInt8) (py : Nat) : List Pixel :=
  let row := bg.row py
  let inTile := (py + bg.fineY) % 8
  let first := bg.column 0
  let tiles := (List.range 33).flatMap fun k =>
    bg.tilePixels (bg.tileRow chr row inTile (first + k))
  (tiles.drop (bg.fineX.toNat % 8)).take Frame.width

/-- The whole picture; `chr` gives the bytes of the patterns. -/
def render (bg : Background) (chr : UInt16 → UInt8) : Frame :=
  ((List.range Frame.height).flatMap (bg.line chr)).toArray

end Background

end Nes
