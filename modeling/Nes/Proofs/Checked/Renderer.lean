import Mathlib.Tactic.IntervalCases
import Nes.Proofs.Checked.Arithmetic
import Nes.Proofs.Mainboard.Reads
import Nes.Proofs.Ppu.Picture

/-!
# Drawing, checked

The picture as it is drawn pixel by pixel into the frame before it, with the last tile kept while
the column stays the same.  The two patterns of a tile lie below `$2000`, a pixel chooses among
eight bits and four colours of a group, and its place is inside the frame; what is drawn is
`Background.render`.
-/

namespace Nes

open Checked

/-! ### Small numbers -/

theorem toNat_and_three (b : UInt8) : (b &&& 3).toNat ≤ 3 := by
  rw [UInt8.toNat_and]
  exact Nat.and_le_right

theorem join_bits (a b : UInt8) : (a &&& 1) <<< 1 ||| (b &&& 1) = (a &&& 1) * 2 + (b &&& 1) := by
  rcases bit_eq_zero_or_one a with ha | ha <;> rcases bit_eq_zero_or_one b with hb | hb <;>
    rw [ha, hb] <;> decide

theorem ofNat_seven_sub {i : Nat} (h : i < 8) : UInt8.ofNat (7 - i) = 7 - UInt8.ofNat i := by
  interval_cases i <;> rfl

namespace TileRow

theorem value_le (r : TileRow) (i : Nat) : (r.value i).toNat ≤ 3 := by
  unfold value
  dsimp only
  generalize r.high >>> (7 - UInt8.ofNat i) = a
  generalize r.low >>> (7 - UInt8.ofNat i) = b
  rcases bit_eq_zero_or_one a with ha | ha <;> rcases bit_eq_zero_or_one b with hb | hb <;>
    rw [ha, hb] <;> decide

/-- The two bits of a pixel, shifted out of the planes. -/
def valueChecked (r : TileRow) (i : Nat) : Checked UInt8 := do
  let bit ← diff 7 i
  let high ← shr r.high bit
  let low ← shr r.low bit
  return (high &&& 1) <<< 1 ||| (low &&& 1)

theorem valueChecked_ok (r : TileRow) {i : Nat} (h : i < 8) :
    r.valueChecked i = .ok (r.value i) := by
  have hbit : 7 - i < 8 := by omega
  unfold valueChecked value
  rw [diff_ok (Nat.le_of_lt_succ h), ok_bind, shr_ok hbit, ok_bind, shr_ok hbit, ok_bind,
    ofNat_seven_sub h, join_bits]
  rfl

end TileRow

namespace Background

/-! ### Tiles -/

def vramChecked (bg : Background) (addr : Nat) : Checked UInt8 := do
  let i ← rem addr bg.vram.size
  fetch bg.vram i

/-- The two planes and the group of a tile's row, each pattern address a sum of words. -/
def tileChecked (bg : Background) (chr : UInt16 → Checked UInt8) (row line column : Nat) :
    Checked TileRow := do
  let base := bg.tableBase row column
  let tile ← bg.vramChecked (base + row % 30 * 32 + column % 32)
  let start ← mul tile.toUInt16 16
  let addr ← add bg.patternBase start
  let addr ← add addr (UInt16.ofNat line)
  let low ← chr addr
  let next ← add addr 8
  let high ← chr next
  let byte ← bg.vramChecked (base + 0x3C0 + row % 30 / 4 * 8 + column % 32 / 4)
  let group ← shr byte (row % 30 % 4 / 2 * 4 + column % 32 % 4 / 2 * 2)
  return ⟨low, high, group &&& 3⟩

/-- The tile of a column, fetched only where it is not the one fetched last. -/
def keptTileChecked (bg : Background) (chr : UInt16 → Checked UInt8)
    (kept : Option (Nat × TileRow)) (row line column : Nat) : Checked TileRow :=
  match kept with
  | some (last, tile) =>
    if last = column then .ok tile else bg.tileChecked chr row line column
  | none => bg.tileChecked chr row line column

/-! ### Pixels -/

def colourChecked (entry : UInt8) : Checked Pixel := do
  let colour ← Checked.entry Palette.master (entry &&& 0x3F).toNat
  return 0xFF000000 ||| colour

def paintChecked (bg : Background) (group value : UInt8) : Checked Pixel :=
  if value = 0 then do
    let entry ← bg.palette.getChecked 0
    colourChecked entry
  else do
    let first ← mul group 4
    let i ← add first value
    let entry ← bg.palette.getChecked (Palette.cell i.toUInt16).toNat
    colourChecked entry

/-- One pixel of line `py`, with the tile kept so far and the frame drawn so far. -/
def drawPixel (bg : Background) (chr : UInt16 → Checked UInt8) (py : Nat)
    (s : Option (Nat × TileRow) × Frame) (px : Nat) :
    Checked (Option (Nat × TileRow) × Frame) := do
  let column := bg.column px
  let tile ← bg.keptTileChecked chr s.1 (bg.row py) ((py + bg.fineY) % 8) column
  let value ← tile.valueChecked ((px + bg.fineX.toNat) % 8)
  let pixel ← bg.paintChecked tile.group value
  let frame ← store s.2 (py * Frame.width + px) pixel
  return (some (column, tile), frame)

def drawLine (bg : Background) (chr : UInt16 → Checked UInt8) (frame : Frame) (py : Nat) :
    Checked Frame := do
  let s ← (List.range Frame.width).foldlM (bg.drawPixel chr py) (none, frame)
  return s.2

def draw (bg : Background) (chr : UInt16 → Checked UInt8) (frame : Frame) : Checked Frame :=
  (List.range Frame.height).foldlM (bg.drawLine chr) frame

/-! ### Nothing goes wrong -/

theorem colourChecked_ok (entry : UInt8) : colourChecked entry = .ok (Palette.colour entry) := by
  have hsix : (entry &&& 0x3F).toNat = entry.toNat % 64 := by
    rw [UInt8.toNat_and]
    exact Nat.and_two_pow_sub_one_eq_mod _ 6
  unfold colourChecked Palette.colour
  simp only [hsix]
  rw [entry_ok _ (Nat.mod_lt _ (by decide))]
  rfl

variable {bg : Background}

theorem paintChecked_ok {group value : UInt8} (hgroup : group.toNat ≤ 3)
    (hvalue : value.toNat ≤ 3) :
    bg.paintChecked group value = .ok (bg.paint group value) := by
  unfold paintChecked paint
  split
  · have hzero : bg.palette.getChecked 0 = .ok (bg.palette.get 0) := Memory.getChecked_ok _ rfl
    rw [hzero, ok_bind, colourChecked_ok]
  · have hmul : group.toNat * (4 : UInt8).toNat < 2 ^ 8 := by
      show group.toNat * 4 < 2 ^ 8
      omega
    have hfirst : (group * 4).toNat = group.toNat * 4 := by
      rw [UInt8.toNat_mul, Nat.mod_eq_of_lt hmul]
      rfl
    have hadd : (group * 4).toNat + value.toNat < 2 ^ 8 := by
      rw [hfirst]
      omega
    rw [mul_ok hmul, ok_bind, add_ok hadd, ok_bind,
      Memory.getChecked_ok bg.palette (Palette.cell_eq_mod _), ok_bind, colourChecked_ok]

variable {read : UInt16 → UInt8}

theorem vramChecked_ok (hvram : 0 < bg.vram.size) (addr : Nat) :
    bg.vramChecked addr = .ok (bg.vramAt addr) := by
  have hlt := Nat.mod_lt addr hvram
  unfold vramChecked vramAt
  rw [rem_ok hvram, ok_bind, fetch_ok hlt, Array.getD_eq_getD_getElem?,
    Array.getElem?_eq_getElem hlt]
  rfl

/-- A tile's rows lie below `$2000`, so that none of the sums on the way to one runs over. -/
theorem patternAddr_fits {base : UInt16} (hbase : base.toNat ≤ 0x1000) (tile : UInt8) {line : Nat}
    (hline : line < 8) : tile.toUInt16.toNat * (16 : UInt16).toNat < 2 ^ 16 ∧
      base.toNat + (tile.toUInt16 * 16).toNat < 2 ^ 16 ∧
      (base + tile.toUInt16 * 16).toNat + (UInt16.ofNat line).toNat < 2 ^ 16 ∧
      (base + tile.toUInt16 * 16 + UInt16.ofNat line).toNat + (8 : UInt16).toNat < 2 ^ 16 := by
  have htile := tile.toNat_lt
  simp only [UInt16.toNat_add, UInt16.toNat_mul, UInt8.toNat_toUInt16, UInt16.toNat_ofNat',
    UInt16.reduceToNat]
  omega

theorem group_le (row line column : Nat) : (bg.tileRow read row line column).group.toNat ≤ 3 :=
  toNat_and_three _

/-- The tile kept is the one of its column. -/
def Kept (bg : Background) (read : UInt16 → UInt8) (row line : Nat) :
    Option (Nat × TileRow) → Prop
  | some (column, tile) => tile = bg.tileRow read row line column
  | none => True

section Tiles

variable {chr : UInt16 → Checked UInt8} (hvram : 0 < bg.vram.size)
  (hbase : bg.patternBase.toNat ≤ 0x1000)
  (hchr : ∀ addr, addr < 0x2000 → chr addr = .ok (read addr))

include hvram hbase hchr

theorem tileChecked_ok (row column : Nat) {line : Nat} (hline : line < 8) :
    bg.tileChecked chr row line column = .ok (bg.tileRow read row line column) := by
  have hshift : row % 30 % 4 / 2 * 4 + column % 32 % 4 / 2 * 2 < 8 := by omega
  unfold tileChecked tileRow groupAt
  simp only [vramChecked_ok hvram, ok_bind]
  generalize bg.vramAt (bg.tableBase row column + row % 30 * 32 + column % 32) = tile
  obtain ⟨hstart, hfirst, hsecond, hnext⟩ := patternAddr_fits hbase tile hline
  obtain ⟨hlow, hhigh⟩ := patternAddr_lt hbase tile hline
  rw [mul_ok hstart, ok_bind, add_ok hfirst, ok_bind, add_ok hsecond, ok_bind, hchr _ hlow, ok_bind,
    add_ok hnext, ok_bind, hchr _ hhigh, ok_bind, shr_ok hshift]
  rfl

theorem keptTileChecked_ok {kept : Option (Nat × TileRow)} {row line : Nat} (hline : line < 8)
    (hkept : Kept bg read row line kept) (column : Nat) :
    bg.keptTileChecked chr kept row line column = .ok (bg.tileRow read row line column) := by
  have hfetch : bg.tileChecked chr row line column = .ok (bg.tileRow read row line column) :=
    tileChecked_ok hvram hbase hchr row column hline
  unfold keptTileChecked
  split
  · split
    case isTrue hsame =>
      subst hsame
      exact congrArg Except.ok hkept
    case isFalse => exact hfetch
  · exact hfetch

end Tiles

/-- The frame as far as it is drawn: `n` pixels of the picture, in reading order. -/
structure Drawn (bg : Background) (read : UInt16 → UInt8) (n : Nat) (frame : Frame) : Prop where
  size : frame.size = Frame.width * Frame.height
  pixel : ∀ i, i < n → frame[i]? = (bg.render read)[i]?

variable {frame : Frame} {n : Nat}

theorem Drawn.all (h : Drawn bg read (Frame.width * Frame.height) frame) :
    frame = bg.render read := by
  apply Array.ext_getElem?
  intro i
  by_cases hi : i < Frame.width * Frame.height
  · exact h.pixel i hi
  · rw [Array.getElem?_eq_none (by rw [h.size]; omega),
      Array.getElem?_eq_none (by rw [size_render]; omega)]

theorem Drawn.next (h : Drawn bg read n frame) {pixel : Pixel}
    (hpixel : (bg.render read)[n]? = some pixel) :
    Drawn bg read (n + 1) (frame.setIfInBounds n pixel) := by
  have hn : n < (bg.render read).size := by
    by_contra hout
    rw [Array.getElem?_eq_none (by omega)] at hpixel
    cases hpixel
  rw [size_render] at hn
  constructor
  case size => rw [Array.size_setIfInBounds, h.size]
  case pixel =>
    intro i hi
    by_cases hlast : n = i
    · subst hlast
      rw [Array.getElem?_setIfInBounds_self_of_lt (by rw [h.size]; exact hn), hpixel]
    · rw [Array.getElem?_setIfInBounds_ne hlast]
      exact h.pixel i (by omega)

/-- Where line `py` stands after `px` of its pixels. -/
def LineDrawn (bg : Background) (read : UInt16 → UInt8) (py px : Nat)
    (s : Option (Nat × TileRow) × Frame) : Prop :=
  Kept bg read (bg.row py) ((py + bg.fineY) % 8) s.1 ∧
    Drawn bg read (py * Frame.width + px) s.2

section Loops

variable {chr : UInt16 → Checked UInt8} (hvram : 0 < bg.vram.size)
  (hbase : bg.patternBase.toNat ≤ 0x1000)
  (hchr : ∀ addr, addr < 0x2000 → chr addr = .ok (read addr))

include hvram hbase hchr

theorem drawPixel_ok {py px : Nat} (hy : py < Frame.height) (hx : px < Frame.width)
    {s : Option (Nat × TileRow) × Frame} (h : LineDrawn bg read py px s) :
    ∃ s', bg.drawPixel chr py s px = .ok s' ∧
      LineDrawn bg read py (px + 1) s' := by
  obtain ⟨hkept, hdrawn⟩ := h
  have hline : (py + bg.fineY) % 8 < 8 := Nat.mod_lt _ (by decide)
  have hplace : (px + bg.fineX.toNat) % 8 < 8 := Nat.mod_lt _ (by decide)
  have hinside : py * Frame.width + px < s.2.size := by
    rw [hdrawn.size]
    simp only [Frame.width, Frame.height] at hy hx ⊢
    omega
  unfold drawPixel
  dsimp only
  rw [keptTileChecked_ok hvram hbase hchr hline hkept, ok_bind, TileRow.valueChecked_ok _ hplace,
    ok_bind, paintChecked_ok (group_le _ _ _) (TileRow.value_le _ _), ok_bind, store_ok hinside]
  refine ⟨_, rfl, rfl, ?_⟩
  rw [← Nat.add_assoc]
  exact hdrawn.next (bg.render_pixel read hx hy)

theorem drawLine_ok {py : Nat} (hy : py < Frame.height)
    (hdrawn : Drawn bg read (py * Frame.width) frame) :
    ∃ frame', bg.drawLine chr frame py = .ok frame' ∧
      Drawn bg read ((py + 1) * Frame.width) frame' := by
  have hstart : LineDrawn bg read py 0 (none, frame) := by
    refine ⟨trivial, ?_⟩
    rw [Nat.add_zero]
    exact hdrawn
  obtain ⟨s, hrun, -, hs⟩ := foldlM_range
    (fun px s hx h => drawPixel_ok hvram hbase hchr hy hx h) hstart
  refine ⟨s.2, ?_, ?_⟩
  · unfold drawLine
    rw [hrun]
    rfl
  · rw [Nat.succ_mul]
    exact hs

/-- Drawing comes to its end, and what it has drawn over the frame before is the picture. -/
theorem draw_ok (hsize : frame.size = Frame.width * Frame.height) :
    bg.draw chr frame = .ok (bg.render read) := by
  have hstart : Drawn bg read (0 * Frame.width) frame := by
    refine ⟨hsize, ?_⟩
    intro i hi
    omega
  obtain ⟨frame', hrun, hdrawn⟩ := foldlM_range
    (P := fun py (drawn : Frame) => Drawn bg read (py * Frame.width) drawn)
    (fun py frame hy h => drawLine_ok hvram hbase hchr hy h) hstart
  rw [Nat.mul_comm] at hdrawn
  unfold draw
  rw [hrun, hdrawn.all]

end Loops

end Background

end Nes
