import Nes.Proofs.Ppu.Frames
import Nes.Proofs.Ppu.Pixels

/-!
# What a picture depends on

Two units beside two boards draw the same picture at the end of a frame when they agree on the four
nametables, the position, the table of patterns that is chosen and the thirteen entries of the
palette that a background can show.  All that the drawing indexes lies there, wherever the position
is and whatever tiles the nametables hold.
-/

namespace Nes

namespace Background

/-- Two backgrounds that agree wherever a pixel can look. -/
structure Same (bg other : Background) (chr chr' : UInt16 → UInt8) : Prop where
  v : bg.v = other.v
  fineX : bg.fineX = other.fineX
  patternBase : bg.patternBase = other.patternBase
  table : ∀ addr, 0x2000 ≤ addr → addr < 0x3000 → bg.vramAt addr = other.vramAt addr
  pattern : ∀ i, i < 0x1000 → chr (UInt16.ofNat (bg.patternBase.toNat + i)) =
    chr' (UInt16.ofNat (bg.patternBase.toNat + i))
  palette : ∀ i, i < 16 → i = 0 ∨ i % 4 ≠ 0 →
    bg.palette.get (UInt16.ofNat i) = other.palette.get (UInt16.ofNat i)

variable {bg other : Background} {chr chr' : UInt16 → UInt8}

/-! ### Nametables -/

theorem tableByte_congr (h : Same bg other chr chr') (row column : Nat) {offset : Nat}
    (hoffset : offset < 0x400) :
    bg.tableByte row column offset = other.tableByte row column offset := by
  have hfour := Nat.mod_lt (bg.v.toNat / 1024 % 4 + 2 * (row / 30) + column / 32)
    (show 0 < 4 by decide)
  unfold tableByte
  rw [← h.v]
  exact h.table _ (by omega) (by omega)

theorem quarterGroup_congr (h : Same bg other chr chr') (row column : Nat) :
    bg.quarterGroup row column = other.quarterGroup row column := by
  have hoffset : 0x3C0 + row % 30 / 4 * 8 + column % 32 / 4 < 0x400 := by omega
  simp only [quarterGroup, tableByte_congr h row column hoffset]

/-! ### Patterns -/

theorem planeBit_congr (h : Same bg other chr chr') {i : Nat} (hi : i < 0x1000) (bit : Nat) :
    planeBit chr (bg.patternBase.toNat + i) bit = planeBit chr' (bg.patternBase.toNat + i) bit := by
  unfold planeBit
  rw [h.pattern i hi]

theorem entryAt_congr (h : Same bg other chr chr') (px py : Nat) :
    bg.entryAt chr px py = other.entryAt chr' px py := by
  unfold entryAt
  rw [← h.v, ← h.fineX, ← h.patternBase]
  dsimp only
  generalize bg.v.toNat % 32 + (px + bg.fineX.toNat) / 8 = column
  generalize bg.v.toNat / 4096 % 8 = fineY
  generalize bg.v.toNat / 32 % 32 + (py + fineY) / 8 = row
  have hoffset : row % 30 * 32 + column % 32 < 0x400 := by omega
  rw [← tableByte_congr h row column hoffset, ← quarterGroup_congr h row column]
  have htile := (bg.tableByte row column (row % 30 * 32 + column % 32)).toNat_lt
  generalize (bg.tableByte row column (row % 30 * 32 + column % 32)).toNat = tile at htile
  -- The last tile ends where the table does.
  have hlow : 16 * tile + (py + fineY) % 8 < 0x1000 := by omega
  have hhigh : 16 * tile + (py + fineY) % 8 + 8 < 0x1000 := by omega
  simp only [Nat.add_assoc] at hhigh ⊢
  simp only [planeBit_congr h hlow, planeBit_congr h hhigh]

/-! ### Entries -/

/-- No pixel shows the first entry of a group other than the one behind all of them. -/
theorem entryAt_shown (bg : Background) (chr : UInt16 → UInt8) (px py : Nat) :
    bg.entryAt chr px py < 16 ∧ (bg.entryAt chr px py = 0 ∨ bg.entryAt chr px py % 4 ≠ 0) := by
  unfold entryAt
  dsimp only
  generalize bg.v.toNat % 32 + (px + bg.fineX.toNat) / 8 = column
  generalize bg.v.toNat / 32 % 32 + (py + bg.v.toNat / 4096 % 8) / 8 = row
  have hgroup := bg.quarterGroup_lt row column
  have hbit := planeBit_lt chr
  generalize bg.tableByte row column _ = tile
  generalize bg.patternBase.toNat + 16 * tile.toNat + (py + bg.v.toNat / 4096 % 8) % 8 = addr
  generalize 7 - (px + bg.fineX.toNat) % 8 = bit
  have hlow := hbit addr bit
  have hhigh := hbit (addr + 8) bit
  split
  · exact ⟨by decide, .inl rfl⟩
  · exact ⟨by omega, .inr (by omega)⟩

theorem pixelAt_congr (h : Same bg other chr chr') (px py : Nat) :
    bg.pixelAt chr px py = other.pixelAt chr' px py := by
  obtain ⟨hlt, hshown⟩ := bg.entryAt_shown chr px py
  unfold pixelAt
  rw [h.palette _ hlt hshown, entryAt_congr h]

/-! ### Pictures -/

theorem render_congr (h : Same bg other chr chr') : bg.render chr = other.render chr' := by
  apply Array.ext_getElem?
  intro i
  by_cases hi : i < 256 * 240
  · have hx : i % 256 < Frame.width := Nat.mod_lt _ (by decide)
    have hy : i / 256 < Frame.height := Nat.div_lt_of_lt_mul hi
    have hsplit : i = i / 256 * Frame.width + i % 256 := by
      unfold Frame.width
      omega
    rw [hsplit, bg.render_pixel chr hx hy, other.render_pixel chr' hx hy, colourAt_eq_pixelAt,
      colourAt_eq_pixelAt, pixelAt_congr h]
  · have hend : Frame.width * Frame.height ≤ i := Nat.le_of_not_lt hi
    rw [Array.getElem?_eq_none (by rw [size_render]; exact hend),
      Array.getElem?_eq_none (by rw [size_render]; exact hend)]

end Background

theorem Memory.getD_toArray {size : Nat} [MemorySize size] (m : Memory size) {addr : Nat}
    (h : addr < UInt16.size) :
    m.toArray.getD (addr % m.toArray.size) 0 = m.get (UInt16.ofNat addr) := by
  have hpos : 0 < size := MemorySize.pos
  have hlt := Nat.mod_lt addr hpos
  simp [toArray, get, UInt16.toNat_ofNat_of_lt' h, hlt]

namespace Ppu

/-- The unit and the board hold the same background: the nametables, the position, the table of
patterns that the control byte chooses, and the entries of the palette that a pixel can show. -/
structure SameBackground (s t : Picture) : Prop where
  nametables : ∀ addr, 0x2000 ≤ addr → addr < 0x3000 → s.1.vram.get addr = t.1.vram.get addr
  v : s.1.scroll.v = t.1.scroll.v
  fineX : s.1.scroll.fineX = t.1.scroll.fineX
  chosen : testBits s.1.control 0x10 = testBits t.1.control 0x10
  patterns : ∀ i : UInt16, i < 0x1000 →
    s.2.ppuRead ((if testBits s.1.control 0x10 then 0x1000 else 0) + i) =
      t.2.ppuRead ((if testBits s.1.control 0x10 then 0x1000 else 0) + i)
  palette : ∀ i ∈ [0, 1, 2, 3, 5, 6, 7, 9, 10, 11, 13, 14, 15],
    s.1.palette.get i = t.1.palette.get i

variable {s t : Picture}

theorem SameBackground.same (h : SameBackground s t) :
    Background.Same s.1.background t.1.background s.2.ppuRead t.2.ppuRead where
  v := h.v
  fineX := h.fineX
  patternBase := by
    unfold background
    rw [h.chosen]
  table := by
    intro addr hlow hhigh
    have hsize : addr < UInt16.size := Nat.lt_trans hhigh (by decide)
    have hword := UInt16.toNat_ofNat_of_lt' hsize
    show s.1.vram.toArray.getD (addr % s.1.vram.toArray.size) 0 =
      t.1.vram.toArray.getD (addr % t.1.vram.toArray.size) 0
    rw [Memory.getD_toArray _ hsize, Memory.getD_toArray _ hsize]
    apply h.nametables
    · rw [UInt16.le_iff_toNat_le, hword]
      exact hlow
    · rw [UInt16.lt_iff_toNat_lt, hword]
      exact hhigh
  pattern := by
    intro i hi
    have hlt : UInt16.ofNat i < 0x1000 := by
      rw [UInt16.lt_iff_toNat_lt, UInt16.toNat_ofNat_of_lt' (Nat.lt_trans hi (by decide))]
      exact hi
    rw [UInt16.ofNat_add, UInt16.ofNat_toNat]
    exact h.patterns _ hlt
  palette := by
    have hlisted : ∀ i : Fin 16, i.val = 0 ∨ i.val % 4 ≠ 0 →
        UInt16.ofNat i ∈ ([0, 1, 2, 3, 5, 6, 7, 9, 10, 11, 13, 14, 15] : List UInt16) := by
      decide
    intro i hi hshown
    exact h.palette _ (hlisted ⟨i, hi⟩ hshown)

/-- The last dot of a frame draws the same picture, whatever else the units and boards hold. -/
theorem frame_determined (h : SameBackground s t)
    (hs : s.1.beam.scanline = 261 ∧ s.1.beam.dot = 340)
    (ht : t.1.beam.scanline = 261 ∧ t.1.beam.dot = 340) :
    (s.1.step s.2).1.frame = (t.1.step t.2).1.frame := by
  have hends {p : Picture} (hp : p.1.beam.scanline = 261 ∧ p.1.beam.dot = 340) :
      (p.1.step p.2).1.frame = p.1.background.render p.2.ppuRead := by
    have hlast : p.1.beam.next.atFrame = true := by
      rw [Beam.atFrame_next, hp.1, hp.2]
      rfl
    show (p.1.tick p.2).frame = _
    rw [frame_tick, hlast]
    exact if_pos rfl
  rw [hends hs, hends ht]
  exact Background.render_congr h.same

/-- Two tables of patterns, each of one byte all over. -/
def twoTables (left right : UInt8) : Board :=
  .nrom ⟨#[], ⟨Array.replicate 0x1000 left ++ Array.replicate 0x1000 right, false⟩, .horizontal⟩

theorem ppuRead_twoTables (left right : UInt8) {i : UInt16} (h : i < 0x1000) :
    (twoTables left right).ppuRead (0x1000 + i) = right := by
  rw [UInt16.lt_iff_toNat_lt] at h
  simp only [UInt16.reduceToNat] at h
  have hplace : (0x1000 + i).toNat = 0x1000 + i.toNat := by
    simp only [UInt16.toNat_add, UInt16.reduceToNat]
    omega
  have hlow : 0x1000 + i < 0x2000 := by
    rw [UInt16.lt_iff_toNat_lt, hplace]
    simp only [UInt16.reduceToNat]
    omega
  have hright : (Array.replicate 0x1000 left ++ Array.replicate 0x1000 right)[0x1000 + i.toNat]? =
      some right := by
    rw [Array.getElem?_append_right (by simp)]
    simp [h]
  simp [twoTables, Board.ppuRead, hlow, Nrom.ppuRead, Chr.read, romByte, hplace, hright]

/-- A unit and a board at the end of a frame. -/
def plain : Picture :=
  ({ powerOn with
      beam := ⟨261, 340, 0⟩
      scroll := ⟨0x7B35, 0, 3, false⟩
      control := 0x10 }, twoTables 0 0x5A)

/-- The same background, and all else different. -/
def cluttered : Picture :=
  ({ plain.1 with
      scroll := ⟨0x7B35, 0x1234, 3, true⟩
      control := 0x97
      mask := 0x1E
      buffer := 0xC3
      vram := (plain.1.vram.set 0x1FFF 1).set 0x3000 2
      palette := (((plain.1.palette.set 4 1).set 8 2).set 12 3).set 16 4
      frame := Array.replicate 61440 0xFFB02CEC }, twoTables 0xFF 0x5A)

theorem sameBackground_cluttered : SameBackground plain cluttered where
  nametables := by
    intro addr hlow hhigh
    rw [UInt16.le_iff_toNat_le] at hlow
    rw [UInt16.lt_iff_toNat_lt] at hhigh
    simp only [UInt16.reduceToNat] at hlow hhigh
    show plain.1.vram.get addr = ((plain.1.vram.set 0x1FFF 1).set 0x3000 2).get addr
    rw [Memory.get_set_of_mod_ne, Memory.get_set_of_mod_ne] <;>
    · simp only [UInt16.reduceToNat]
      omega
  v := rfl
  fineX := rfl
  chosen := rfl
  patterns := by
    intro i hi
    show (twoTables 0 0x5A).ppuRead (0x1000 + i) = (twoTables 0xFF 0x5A).ppuRead (0x1000 + i)
    rw [ppuRead_twoTables _ _ hi, ppuRead_twoTables _ _ hi]
  palette := by
    have hall : ([0, 1, 2, 3, 5, 6, 7, 9, 10, 11, 13, 14, 15] : List UInt16).all
        (fun i => plain.1.palette.get i == cluttered.1.palette.get i) = true := by decide
    intro i hi
    exact beq_iff_eq.1 (List.all_eq_true.1 hall i hi)

theorem frame_cluttered :
    plain.1.mask ≠ cluttered.1.mask ∧ plain.1.palette.get 16 ≠ cluttered.1.palette.get 16 ∧
      plain.1.frame[0]? ≠ cluttered.1.frame[0]? ∧
      (plain.1.step plain.2).1.frame = (cluttered.1.step cluttered.2).1.frame := by
  have hblank : plain.1.frame[0]? = some 0 := by
    simp [plain, powerOn, Frame.blank, Frame.width, Frame.height]
  refine ⟨by decide, by decide, ?_, ?_⟩
  · rw [hblank]
    simp [cluttered]
  · exact frame_determined sameBackground_cluttered ⟨rfl, rfl⟩ ⟨rfl, rfl⟩

end Ppu

end Nes
