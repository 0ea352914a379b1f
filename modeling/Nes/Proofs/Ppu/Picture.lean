import Nes.Ppu.Background

/-!
# The picture pixel by pixel

`Background.render` cuts each line out of the tiles that it touches and fetches a tile once for
its eight pixels.  Every pixel comes out as `Background.colourAt` gives it by itself.
-/

namespace Nes

section Rows

variable {α : Type} (f : Nat → List α) (w : Nat)

theorem length_rows (hw : ∀ k, (f k).length = w) (n : Nat) :
    ((List.range n).flatMap f).length = n * w := by
  induction n with
  | zero => simp
  | succ n ih =>
    rw [List.range_succ, List.flatMap_append, List.length_append, ih, List.flatMap_singleton, hw,
      Nat.succ_mul]

/-- In a sequence of rows of one length, an element is found by its row and its place there. -/
theorem getElem?_rows (hw : ∀ k, (f k).length = w) (n : Nat) {k i : Nat} (hk : k < n) (hi : i < w) :
    ((List.range n).flatMap f)[k * w + i]? = (f k)[i]? := by
  induction n with
  | zero => omega
  | succ n ih =>
    have hlen := length_rows f w hw n
    rw [List.range_succ, List.flatMap_append, List.flatMap_singleton]
    by_cases hlt : k < n
    · have hbound : k * w + i < n * w :=
        calc k * w + i < (k + 1) * w := by rw [Nat.succ_mul]; omega
          _ ≤ n * w := Nat.mul_le_mul_right w hlt
      rw [List.getElem?_append_left (by rw [hlen]; exact hbound)]
      exact ih hlt
    · have heq : k = n := by omega
      subst heq
      rw [List.getElem?_append_right (by rw [hlen]; omega), hlen, Nat.add_sub_cancel_left]

end Rows

namespace Background

variable (bg : Background) (chr : UInt16 → UInt8)

theorem length_tilePixels (tile : TileRow) : (bg.tilePixels tile).length = 8 := by
  simp [tilePixels]

theorem tilePixels_pixel (tile : TileRow) {i : Nat} (hi : i < 8) :
    (bg.tilePixels tile)[i]? = some (bg.paint tile.group (tile.value i)) := by
  simp [tilePixels, hi]

theorem length_line (py : Nat) : (bg.line chr py).length = Frame.width := by
  unfold line
  rw [List.length_take, List.length_drop, length_rows _ 8 (fun _ => bg.length_tilePixels _)]
  have hlt : bg.fineX.toNat % 8 < 8 := Nat.mod_lt _ (by decide)
  unfold Frame.width
  omega

theorem line_pixel (py : Nat) {px : Nat} (hx : px < Frame.width) :
    (bg.line chr py)[px]? = some (bg.colourAt chr px py) := by
  -- The pixel lies `fineX % 8 + px` pixels to the right of the first tile's left edge.
  have hwidth : px < 256 := hx
  have hlt : bg.fineX.toNat % 8 < 8 := Nat.mod_lt _ (by decide)
  have htile : (bg.fineX.toNat % 8 + px) / 8 < 33 := by omega
  have hplace : (bg.fineX.toNat % 8 + px) % 8 < 8 := Nat.mod_lt _ (by decide)
  have hsplit : bg.fineX.toNat % 8 + px =
      (bg.fineX.toNat % 8 + px) / 8 * 8 + (bg.fineX.toNat % 8 + px) % 8 := by omega
  have hcolumn : bg.column 0 + (bg.fineX.toNat % 8 + px) / 8 = bg.column px := by
    unfold column
    omega
  have hinTile : (bg.fineX.toNat % 8 + px) % 8 = (px + bg.fineX.toNat) % 8 := by omega
  simp only [line]
  rw [List.getElem?_take_of_lt hx, List.getElem?_drop, hsplit,
    getElem?_rows _ 8 (fun _ => bg.length_tilePixels _) 33 htile hplace, hcolumn, hinTile]
  rw [hinTile] at hplace
  exact bg.tilePixels_pixel _ hplace

theorem size_render : (bg.render chr).size = Frame.width * Frame.height := by
  unfold render
  rw [List.size_toArray, length_rows _ Frame.width (fun py => bg.length_line chr py),
    Nat.mul_comm]

theorem render_pixel {px py : Nat} (hx : px < Frame.width) (hy : py < Frame.height) :
    (bg.render chr)[py * Frame.width + px]? = some (bg.colourAt chr px py) := by
  unfold render
  rw [List.getElem?_toArray,
    getElem?_rows _ Frame.width (fun py => bg.length_line chr py) Frame.height hy hx]
  exact bg.line_pixel chr py hx

/-! ### Patterns -/

section Patterns

variable {base : UInt16} {line : Nat}

theorem toNat_patternAddr (hbase : base.toNat ≤ 0x1000) (tile : UInt8) (hline : line < 8) :
    (base + tile.toUInt16 * 16 + UInt16.ofNat line).toNat =
      base.toNat + tile.toNat * 16 + line := by
  have htile := tile.toNat_lt
  simp only [UInt16.toNat_add, UInt16.toNat_mul, UInt8.toNat_toUInt16, UInt16.toNat_ofNat',
    UInt16.reduceToNat]
  omega

theorem toNat_patternAddr_next (hbase : base.toNat ≤ 0x1000) (tile : UInt8) (hline : line < 8) :
    (base + tile.toUInt16 * 16 + UInt16.ofNat line + 8).toNat =
      base.toNat + tile.toNat * 16 + line + 8 := by
  have htile := tile.toNat_lt
  simp only [UInt16.toNat_add, toNat_patternAddr hbase tile hline, UInt16.reduceToNat]
  omega

/-- Both planes of a tile lie below `$2000`. -/
theorem patternAddr_lt (hbase : base.toNat ≤ 0x1000) (tile : UInt8) (hline : line < 8) :
    base + tile.toUInt16 * 16 + UInt16.ofNat line < 0x2000 ∧
      base + tile.toUInt16 * 16 + UInt16.ofNat line + 8 < 0x2000 := by
  have htile := tile.toNat_lt
  simp only [UInt16.lt_iff_toNat_lt, toNat_patternAddr hbase tile hline,
    toNat_patternAddr_next hbase tile hline, UInt16.reduceToNat]
  omega

end Patterns

end Background

end Nes
