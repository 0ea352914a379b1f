import Nes.Proofs.Checked.Renderer

/-!
# A pixel in numbers

The colour of one pixel by quotients and remainders alone: where the pixel lies among the tiles of
the four nametables, which pattern and which group its tile has, and which of the sixteen entries
of the palette its two bits choose.  The drawing that keeps the last tile of a line comes to this
colour at every pixel, and reads no pattern at `$2000` or above.
-/

namespace Nes

open Checked

namespace Background

/-- A byte of the nametable that a tile lies in. -/
def tableByte (bg : Background) (row column offset : Nat) : UInt8 :=
  let table := (bg.v.toNat / 1024 % 4 + 2 * (row / 30) + column / 32) % 4
  bg.vram.getD ((0x2000 + 0x400 * table + offset) % bg.vram.size) 0

/-- The group of a tile: two bits for each quarter of a square of four by four tiles. -/
def quarterGroup (bg : Background) (row column : Nat) : Nat :=
  let y := row % 30
  let x := column % 32
  let byte := bg.tableByte row column (0x3C0 + y / 4 * 8 + x / 4)
  byte.toNat / 4 ^ (2 * (y % 4 / 2) + x % 4 / 2) % 4

def planeBit (chr : UInt16 → UInt8) (addr bit : Nat) : Nat :=
  (chr (UInt16.ofNat addr)).toNat / 2 ^ bit % 2

/-- The entry of the palette that a pixel shows; the first one stands behind all groups. -/
def entryAt (bg : Background) (chr : UInt16 → UInt8) (px py : Nat) : Nat :=
  let v := bg.v.toNat
  let column := v % 32 + (px + bg.fineX.toNat) / 8
  let fineY := v / 4096 % 8
  let row := v / 32 % 32 + (py + fineY) / 8
  let tile := bg.tableByte row column (row % 30 * 32 + column % 32)
  let addr := bg.patternBase.toNat + 16 * tile.toNat + (py + fineY) % 8
  let bit := 7 - (px + bg.fineX.toNat) % 8
  let value := 2 * planeBit chr (addr + 8) bit + planeBit chr addr bit
  if value = 0 then 0 else 4 * bg.quarterGroup row column + value

def pixelAt (bg : Background) (chr : UInt16 → UInt8) (px py : Nat) : Pixel :=
  Palette.colour (bg.palette.get (UInt16.ofNat (bg.entryAt chr px py)))

variable (bg : Background)

/-! ### Tiles -/

theorem vramAt_tableBase (row column offset : Nat) :
    bg.vramAt (bg.tableBase row column + offset) = bg.tableByte row column offset := by
  have haddr : bg.tableBase row column + offset =
      0x2000 + 0x400 * ((bg.v.toNat / 1024 % 4 + 2 * (row / 30) + column / 32) % 4) + offset := by
    unfold tableBase nametable
    omega
  unfold vramAt tableByte
  rw [haddr]

theorem toNat_groupAt (row column : Nat) :
    (bg.groupAt row column).toNat = bg.quarterGroup row column := by
  have hpair (y x : Nat) : y % 4 / 2 * 4 + x % 4 / 2 * 2 = 2 * (2 * (y % 4 / 2) + x % 4 / 2) := by
    omega
  have hsmall (y x : Nat) : 2 * (2 * (y % 4 / 2) + x % 4 / 2) < 8 := by omega
  have hthree (n : Nat) : n &&& 3 = n % 4 := Nat.and_two_pow_sub_one_eq_mod n 2
  simp only [groupAt, quarterGroup, hpair, Nat.add_assoc, vramAt_tableBase]
  generalize bg.tableByte row column _ = byte
  rw [UInt8.toNat_and, UInt8.toNat_shiftRight, UInt8.toNat_ofNat',
    Nat.mod_eq_of_lt (Nat.lt_trans (hsmall _ _) (by decide)), Nat.mod_eq_of_lt (hsmall _ _),
    Nat.shiftRight_eq_div_pow, Nat.pow_mul]
  exact hthree _

theorem quarterGroup_lt (row column : Nat) : bg.quarterGroup row column < 4 :=
  Nat.mod_lt _ (by decide)

theorem planeBit_lt (chr : UInt16 → UInt8) (addr bit : Nat) : planeBit chr addr bit < 2 :=
  Nat.mod_lt _ (by decide)

theorem toNat_shifted_bit (plane : UInt8) {i : Nat} (hi : i < 8) :
    ((plane >>> (7 - UInt8.ofNat i)) &&& 1).toNat = plane.toNat / 2 ^ (7 - i) % 2 := by
  have hone (n : Nat) : n &&& 1 = n % 2 := Nat.and_two_pow_sub_one_eq_mod n 1
  rw [← ofNat_seven_sub hi, UInt8.toNat_and, UInt8.toNat_shiftRight, UInt8.toNat_ofNat',
    Nat.mod_eq_of_lt (by omega), Nat.mod_eq_of_lt (by omega), Nat.shiftRight_eq_div_pow]
  exact hone _

theorem toNat_value (r : TileRow) {i : Nat} (hi : i < 8) :
    (r.value i).toNat = 2 * (r.high.toNat / 2 ^ (7 - i) % 2) + r.low.toNat / 2 ^ (7 - i) % 2 := by
  have hhigh := toNat_shifted_bit r.high hi
  have hlow := toNat_shifted_bit r.low hi
  simp only [TileRow.value, UInt8.toNat_add, UInt8.toNat_mul, hhigh, hlow, UInt8.reduceToNat]
  omega

/-! ### Pixels -/

theorem paint_eq {group value : UInt8} (hgroup : group.toNat < 4) (hvalue : value.toNat < 4) :
    bg.paint group value = Palette.colour (bg.palette.get (UInt16.ofNat
      (if value.toNat = 0 then 0 else 4 * group.toNat + value.toNat))) := by
  have hzero : value = 0 ↔ value.toNat = 0 := by
    rw [← UInt8.toNat_inj]
    rfl
  -- Below sixteen no two entries share a cell, so that none is folded onto another.
  have hcell : ∀ g v : Fin 4,
      Palette.cell ((UInt8.ofNat g * 4 + UInt8.ofNat v).toUInt16) = UInt16.ofNat (4 * g + v) := by
    decide
  unfold paint
  simp only [hzero]
  split
  · rfl
  · have hentry := hcell ⟨group.toNat, hgroup⟩ ⟨value.toNat, hvalue⟩
    simp only [UInt8.ofNat_toNat] at hentry
    rw [hentry]

variable (chr : UInt16 → UInt8)

theorem colourAt_eq_pixelAt (px py : Nat) : bg.colourAt chr px py = bg.pixelAt chr px py := by
  have hplace : (px + bg.fineX.toNat) % 8 < 8 := Nat.mod_lt _ (by decide)
  have haddr (tile : UInt8) (line : Nat) :
      UInt16.ofNat (bg.patternBase.toNat + 16 * tile.toNat + line) =
        bg.patternBase + tile.toUInt16 * 16 + UInt16.ofNat line := by
    rw [UInt16.ofNat_add, UInt16.ofNat_add, UInt16.ofNat_mul, UInt16.mul_comm]
    simp
  have hnext (addr : Nat) : UInt16.ofNat (addr + 8) = UInt16.ofNat addr + 8 :=
    UInt16.ofNat_add addr 8
  unfold colourAt pixelAt entryAt
  dsimp only
  rw [paint_eq bg (Nat.lt_succ_of_le (group_le _ _ _)) (Nat.lt_succ_of_le (TileRow.value_le _ _)),
    toNat_value _ hplace]
  simp only [tileRow, toNat_groupAt, vramAt_tableBase, Nat.add_assoc (bg.tableBase _ _), planeBit,
    hnext, haddr]
  rfl

/-! ### The drawing -/

/-- Patterns that end the run where they are read at `$2000` or above. -/
def patternsOnly (patterns : UInt16 → UInt8) (addr : UInt16) : Checked UInt8 :=
  if addr < 0x2000 then .ok (patterns addr) else .error .index

theorem patternsOnly_of_lt (patterns : UInt16 → UInt8) (addr : UInt16) (h : addr < 0x2000) :
    patternsOnly patterns addr = .ok (patterns addr) :=
  if_pos h

/-- Over any frame, with a tile kept for its eight pixels, each pixel gets the colour that it has
by itself. -/
theorem draw_eq_pixelAt (patterns : UInt16 → UInt8) (before : Frame) (hvram : 0 < bg.vram.size)
    (hbase : bg.patternBase = 0 ∨ bg.patternBase = 0x1000) (hbefore : before.size = 61440) :
    ∃ drawn, bg.draw (patternsOnly patterns) before = .ok drawn ∧ bg.render patterns = drawn ∧
      drawn.size = 61440 ∧ ∀ px py, px < 256 → py < 240 →
        drawn[py * 256 + px]? = some (bg.pixelAt patterns px py) := by
  have hlow : bg.patternBase.toNat ≤ 0x1000 := by
    rcases hbase with h | h <;>
    · rw [h]
      decide
  refine ⟨bg.render patterns, ?_, rfl, bg.size_render patterns, ?_⟩
  · exact draw_ok hvram hlow (patternsOnly_of_lt patterns) hbefore
  · intro px py hx hy
    rw [← bg.colourAt_eq_pixelAt patterns px py]
    exact bg.render_pixel patterns hx hy

/-- Three bytes of nametable memory, scrolled past both edges and by 255 pixels more. -/
def corner : Background :=
  ⟨#[0x10, 0x9C, 0xE4], ⟨Vector.ofFn fun i => UInt8.ofNat (i.val + 0x12)⟩, 0x7FFF, 255, 0x1000⟩

theorem corner_drawn :
    0 < corner.vram.size ∧ corner.patternBase = 0x1000 ∧
      ∃ drawn, corner.draw (patternsOnly fun addr => addr.toUInt8 * 3)
          (Array.replicate 61440 0xDEADBEEF) = .ok drawn ∧
        drawn[239 * 256 + 255]? = some 0xFF3C7EEC := by
  obtain ⟨drawn, hdraw, -, -, hpixel⟩ := corner.draw_eq_pixelAt (fun addr => addr.toUInt8 * 3)
    (Array.replicate 61440 0xDEADBEEF) (by decide) (.inr rfl) (by simp)
  refine ⟨by decide, rfl, drawn, hdraw, ?_⟩
  rw [hpixel 255 239 (by decide) (by decide)]
  decide

end Background

end Nes
