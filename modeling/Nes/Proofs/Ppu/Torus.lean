import Nes.Board
import Nes.Proofs.Ppu.Picture

/-!
# The picture on the torus of nametables

The four nametables, two by two, repeat in both directions, and the picture is meant to be a
window on this torus of 512 by 480 pixels.  `tableBase` adds the table past the right edge to the
number of the nametable as it is, so that from a nametable on the right the sum carries into the
bit that tells upper from lower: what is left of the torus's seam comes out where it belongs, and
what is right of it comes out of the other half, 240 lines away.
-/

namespace Nes.Background

variable (bg : Background) (chr : UInt16 → UInt8)

/-! ### Places on the torus -/

/-- The column of the torus at the left edge of the picture. -/
def originX (v : UInt16) (fineX : UInt8) : Nat :=
  v.toNat / 1024 % 2 * 256 + v.toNat % 32 * 8 + fineX.toNat

/-- The row of the torus at the upper edge of the picture. -/
def originY (v : UInt16) : Nat :=
  v.toNat / 2048 % 2 * 240 + v.toNat / 32 % 32 * 8 + v.toNat / 4096 % 8

/-- The nametable that a place lies in: one bit tells left from right, the other upper from
lower. -/
def tableAt (wx wy : Nat) : Nat := (if 256 ≤ wx then 1 else 0) + (if 240 ≤ wy then 2 else 0)

theorem tableAt_lt (wx wy : Nat) : tableAt wx wy < 4 := by
  unfold tableAt
  split <;> split <;> omega

theorem two_le_tableAt {wx wy : Nat} : 2 ≤ tableAt wx wy ↔ 240 ≤ wy := by
  unfold tableAt
  split <;> split <;> omega

def torusTile (wx wy : Nat) : UInt8 :=
  bg.vramAt (0x2000 + tableAt wx wy * 0x400 + wy % 240 / 8 * 32 + wx % 256 / 8)

def torusGroup (wx wy : Nat) : UInt8 :=
  let row := wy % 240 / 8
  let column := wx % 256 / 8
  let byte := bg.vramAt (0x2000 + tableAt wx wy * 0x400 + 0x3C0 + row / 4 * 8 + column / 4)
  (byte >>> UInt8.ofNat (row % 4 / 2 * 4 + column % 4 / 2 * 2)) &&& 3

/-- The colour at a place of the torus. -/
def torusColour (wx wy : Nat) : Pixel :=
  let addr := bg.patternBase + (bg.torusTile wx wy).toUInt16 * 16 + UInt16.ofNat (wy % 8)
  let tile : TileRow := ⟨chr addr, chr (addr + 8), bg.torusGroup wx wy⟩
  bg.paint tile.group (tile.value (wx % 8))

theorem nametable_eq : bg.nametable = bg.v.toNat / 1024 % 2 + bg.v.toNat / 2048 % 2 * 2 := by
  unfold nametable
  omega

theorem column_eq (px : Nat) :
    bg.v.toNat / 1024 % 2 * 32 + bg.column px = (originX bg.v bg.fineX + px) / 8 := by
  unfold column coarseX originX
  omega

theorem row_eq (py : Nat) : bg.v.toNat / 2048 % 2 * 30 + bg.row py = (originY bg.v + py) / 8 := by
  unfold row coarseY fineY originY
  omega

/-- Where the picture takes a pixel from: each time the columns pass the torus's seam, the rows
move on by half of its height. -/
theorem tableBase_eq {px py wx wy : Nat} (hf : bg.fineX < 8) (hx : px < Frame.width)
    (hwx : (originX bg.v bg.fineX + px) % 512 = wx)
    (hwy : (originY bg.v + py + (originX bg.v bg.fineX + px) / 512 * 240) % 480 = wy) :
    bg.tableBase (bg.row py) (bg.column px) = 0x2000 + tableAt wx wy * 0x400 := by
  have hfine : bg.fineX.toNat < 8 := hf
  have hwidth : px < 256 := hx
  have hcolumn := bg.column_eq px
  have hrow := bg.row_eq py
  have hbound : bg.column px < 64 := by
    unfold column coarseX
    omega
  have htable : (bg.nametable + bg.row py / 30 * 2 + bg.column px / 32) % 4 = tableAt wx wy := by
    rw [bg.nametable_eq]
    unfold tableAt
    split <;> split <;> omega
  unfold tableBase
  rw [htable]

theorem colourAt_eq {px py wx wy : Nat} (hf : bg.fineX < 8) (hx : px < Frame.width)
    (hwx : (originX bg.v bg.fineX + px) % 512 = wx)
    (hwy : (originY bg.v + py + (originX bg.v bg.fineX + px) / 512 * 240) % 480 = wy) :
    bg.colourAt chr px py = bg.torusColour chr wx wy := by
  have hbase := bg.tableBase_eq hf hx hwx hwy
  have hcolumn := bg.column_eq px
  have hrow := bg.row_eq py
  have hc : bg.column px % 32 = wx % 256 / 8 := by omega
  have hr : bg.row py % 30 = wy % 240 / 8 := by omega
  have hx8 : (px + bg.fineX.toNat) % 8 = wx % 8 := by
    unfold originX at hwx
    omega
  have hy8 : (py + bg.fineY) % 8 = wy % 8 := by
    unfold originY at hwy
    unfold fineY
    omega
  simp only [colourAt, tileRow, groupAt, torusColour, torusTile, torusGroup, hbase, hc, hr, hx8,
    hy8]

/-! ### Telling the halves apart -/

/-- A board whose patterns are all of the last colour of their palette. -/
def solid : Board := .nrom ⟨#[], ⟨Array.replicate 0x2000 0xFF, false⟩, .horizontal⟩

theorem solid_ppuRead {addr : UInt16} (h : addr < 0x2000) : solid.ppuRead addr = 0xFF := by
  have hlt : addr.toNat < 0x2000 := h
  simp [solid, Board.ppuRead, h, Nrom.ppuRead, Chr.read, romByte, hlt]

/-- Memory whose upper two nametables are clear and whose lower two are filled. -/
def halvesVram : Array UInt8 :=
  Array.ofFn (n := 0x4000) fun i => if i.val < 0x2800 then 0 else 0xFF

/-- Colours that tell the last palette from the others. -/
def halvesPalette : PaletteRam := ⟨Vector.ofFn fun i => if i.val < 15 then 0x16 else 0x2A⟩

def halves (v : UInt16) (fineX : UInt8) (patternBase : UInt16) : Background :=
  ⟨halvesVram, halvesPalette, v, fineX, patternBase⟩

theorem size_halvesVram : halvesVram.size = 0x4000 := by
  simp [halvesVram]

theorem palette_halves {cell : UInt16} (h : cell.toNat < 32) :
    halvesPalette.get cell = if cell.toNat < 15 then 0x16 else 0x2A := by
  simp [halvesPalette, Memory.get, Nat.mod_eq_of_lt h]

section Halves

variable (v : UInt16) (fineX : UInt8) (patternBase : UInt16)

theorem vramAt_halves {addr : Nat} (h : addr < 0x4000) :
    (halves v fineX patternBase).vramAt addr = if addr < 0x2800 then 0 else 0xFF := by
  simp only [vramAt, halves, size_halvesVram, Nat.mod_eq_of_lt h]
  simp [halvesVram, h]

theorem paint_halves {group : UInt8} (hg : group = 0 ∨ group = 3) :
    (halves v fineX patternBase).paint group 3 =
      Palette.colour (if group = 0 then 0x16 else 0x2A) := by
  simp only [paint, halves]
  rw [if_neg (by decide)]
  obtain rfl | rfl := hg
  · rw [palette_halves (by decide)]
    rfl
  · rw [palette_halves (by decide)]
    rfl

theorem vramAt_table {wx wy offset : Nat} (h : offset < 0x400) :
    (halves v fineX patternBase).vramAt (0x2000 + tableAt wx wy * 0x400 + offset) =
      if 240 ≤ wy then 0xFF else 0 := by
  have hlt := tableAt_lt wx wy
  have hhalf : 2 ≤ tableAt wx wy ↔ 240 ≤ wy := two_le_tableAt
  rw [vramAt_halves _ _ _ (by omega)]
  by_cases hlower : 240 ≤ wy
  · have := hhalf.2 hlower
    rw [if_pos hlower, if_neg (by omega)]
  · have := mt hhalf.1 hlower
    rw [if_neg hlower, if_pos (by omega)]

theorem torusGroup_halves (wx wy : Nat) :
    (halves v fineX patternBase).torusGroup wx wy = if 240 ≤ wy then 3 else 0 := by
  have hbyte : 0x2000 + tableAt wx wy * 0x400 + 0x3C0 + wy % 240 / 8 / 4 * 8 + wx % 256 / 8 / 4 =
      0x2000 + tableAt wx wy * 0x400 + (0x3C0 + wy % 240 / 8 / 4 * 8 + wx % 256 / 8 / 4) := by
    omega
  simp only [torusGroup]
  rw [hbyte, vramAt_table _ _ _ (by omega)]
  by_cases hlower : 240 ≤ wy
  · have hall : ∀ r c : Fin 4,
        ((0xFF : UInt8) >>> UInt8.ofNat (r / 2 * 4 + c / 2 * 2)) &&& 3 = 3 := by decide
    rw [if_pos hlower, if_pos hlower]
    exact hall ⟨_, Nat.mod_lt _ (by decide)⟩ ⟨_, Nat.mod_lt _ (by decide)⟩
  · rw [if_neg hlower, if_neg hlower]
    simp

theorem value_solid (group : UInt8) {i : Nat} (hi : i < 8) :
    (TileRow.mk 0xFF 0xFF group).value i = 3 := by
  have hall : ∀ k : Fin 8, (TileRow.mk 0xFF 0xFF 0).value k = 3 := by decide
  exact hall ⟨i, hi⟩

theorem torusColour_halves (hb : patternBase = 0 ∨ patternBase = 0x1000) (wx wy : Nat) :
    (halves v fineX patternBase).torusColour solid.ppuRead wx wy =
      Palette.colour (if 240 ≤ wy then 0x2A else 0x16) := by
  have hbase : patternBase.toNat ≤ 0x1000 := by
    obtain rfl | rfl := hb <;> decide
  have hpattern := patternAddr_lt hbase ((halves v fineX patternBase).torusTile wx wy)
    (Nat.mod_lt wy (show 0 < 8 by decide))
  have hvalue := fun group => value_solid group (Nat.mod_lt wx (show 0 < 8 by decide))
  have hsame : (halves v fineX patternBase).patternBase = patternBase := rfl
  simp only [torusColour, hsame, solid_ppuRead hpattern.1, solid_ppuRead hpattern.2, hvalue,
    torusGroup_halves]
  by_cases hlower : 240 ≤ wy
  · rw [if_pos hlower, paint_halves _ _ _ (.inr rfl), if_neg (by decide), if_pos hlower]
  · rw [if_neg hlower, paint_halves _ _ _ (.inl rfl), if_pos rfl, if_neg hlower]

end Halves

/-! ### Where the picture is a window on the torus -/

/-- A pixel has the colour of that place, whatever is in the tables, palettes and patterns. -/
def ShowsPlace (v : UInt16) (fineX : UInt8) (patternBase : UInt16) (px py wx wy : Nat) : Prop :=
  ∀ (vram : Array UInt8) (palette : PaletteRam) (board : Board), vram.size = 0x4000 →
    let bg : Background := ⟨vram, palette, v, fineX, patternBase⟩
    (bg.render board.ppuRead)[py * Frame.width + px]? =
      some (bg.torusColour board.ppuRead wx wy)

section Window

variable {v : UInt16} {fineX : UInt8} {patternBase : UInt16} {px py : Nat}

theorem showsPlace (hf : fineX < 8) (hx : px < Frame.width) (hy : py < Frame.height) :
    ShowsPlace v fineX patternBase px py ((originX v fineX + px) % 512)
      ((originY v + py + (originX v fineX + px) / 512 * 240) % 480) := by
  intro vram palette board _ bg
  rw [bg.render_pixel board.ppuRead hx hy]
  exact congrArg some (bg.colourAt_eq board.ppuRead hf hx rfl rfl)

theorem pixel_halves {wx wy : Nat} (hb : patternBase = 0 ∨ patternBase = 0x1000)
    (h : ShowsPlace v fineX patternBase px py wx wy) :
    ((halves v fineX patternBase).render solid.ppuRead)[py * Frame.width + px]? =
      some (Palette.colour (if 240 ≤ wy then 0x2A else 0x16)) := by
  rw [← torusColour_halves v fineX patternBase hb wx wy]
  exact h halvesVram halvesPalette solid size_halvesVram

theorem left_of_seam (hf : fineX < 8) (hb : patternBase = 0 ∨ patternBase = 0x1000)
    (hx : px < Frame.width) (hy : py < Frame.height)
    (h : ShowsPlace v fineX patternBase px py ((originX v fineX + px) % 512)
      ((originY v + py) % 480)) :
    originX v fineX + px < 512 := by
  have hfine : fineX.toNat < 8 := hf
  have hwidth : px < 256 := hx
  have hactual := pixel_halves hb (showsPlace (v := v) hf hx hy)
  rw [pixel_halves hb h] at hactual
  have hdiffer : Palette.colour 0x2A ≠ Palette.colour 0x16 := by decide
  rcases Nat.lt_or_ge (originX v fineX + px) 512 with hleft | hseam
  · exact hleft
  have hpassed : (originX v fineX + px) / 512 = 1 := by
    unfold originX at hseam ⊢
    omega
  rw [hpassed] at hactual
  have hsame := Option.some.inj hactual
  by_cases hlower : 240 ≤ (originY v + py) % 480
  · rw [if_pos hlower, if_neg (by omega)] at hsame
    exact absurd hsame hdiffer
  · rw [if_neg hlower, if_pos (by omega)] at hsame
    exact absurd hsame.symm hdiffer

/-- A pixel comes from the other half of the torus when its column lies past the seam, so the
picture is a window on the torus exactly left of the seam. -/
theorem render_on_torus (hf : fineX < 8) (hb : patternBase = 0 ∨ patternBase = 0x1000)
    (hx : px < Frame.width) (hy : py < Frame.height) :
    ShowsPlace v fineX patternBase px py ((originX v fineX + px) % 512)
      ((originY v + py + (originX v fineX + px) / 512 * 240) % 480) ∧
    (ShowsPlace v fineX patternBase px py ((originX v fineX + px) % 512)
        ((originY v + py) % 480) ↔
      originX v fineX + px < 512) := by
  refine ⟨showsPlace hf hx hy, left_of_seam hf hb hx hy, fun hleft => ?_⟩
  have hshown : ShowsPlace v fineX patternBase px py ((originX v fineX + px) % 512)
      ((originY v + py + (originX v fineX + px) / 512 * 240) % 480) := showsPlace hf hx hy
  rwa [Nat.div_eq_of_lt hleft, Nat.zero_mul, Nat.add_zero] at hshown

end Window

/-- Scrolled to the last column of tiles of the nametable on the upper right. -/
theorem render_on_torus_last_column :
    (0 : UInt8) < 8 ∧ ((0 : UInt16) = 0 ∨ (0 : UInt16) = 0x1000) ∧ 8 < Frame.width ∧
      0 < Frame.height ∧
      ShowsPlace 0x041F 0 0 8 0 0 240 ∧ ¬ ShowsPlace 0x041F 0 0 8 0 0 0 := by
  have hseam : ¬ originX 0x041F 0 + 8 < 512 := by decide
  have h : ShowsPlace 0x041F 0 0 8 0 0 240 ∧
      (ShowsPlace 0x041F 0 0 8 0 0 0 ↔ originX 0x041F 0 + 8 < 512) :=
    render_on_torus (by decide) (.inl rfl) (by decide) (by decide)
  exact ⟨by decide, .inl rfl, by decide, by decide, h.1, mt h.2.1 hseam⟩

/-- There the ninth pixel of the upper edge is drawn in the colour of the lower half, and not in
that of its own place. -/
theorem last_column_from_other_half :
    ((halves 0x041F 0 0).render solid.ppuRead)[0 * Frame.width + 8]? =
        some (Palette.colour 0x2A) ∧
      (halves 0x041F 0 0).torusColour solid.ppuRead ((originX 0x041F 0 + 8) % 512)
        ((originY 0x041F + 0) % 480) = Palette.colour 0x16 ∧
      Palette.colour 0x2A ≠ Palette.colour 0x16 := by
  have hwx : (originX 0x041F 0 + 8) % 512 = 0 := by decide
  have hwy : (originY 0x041F + 0) % 480 = 0 := by decide
  have hshown : ShowsPlace 0x041F 0 0 8 0 0 240 :=
    showsPlace (by decide) (by decide) (by decide)
  have hpixel := pixel_halves (.inl rfl) hshown
  have hplace := torusColour_halves 0x041F 0 0 (.inl rfl) 0 0
  rw [if_pos (Nat.le_refl 240)] at hpixel
  rw [if_neg (by decide)] at hplace
  rw [hwx, hwy]
  exact ⟨hpixel, hplace, by decide⟩

end Nes.Background
