import Nes.Memory

/-!
# Colours

The picture unit knows 64 colours.  Its palette memory has 32 cells, of which the first of each
group of four in the upper half is the same cell as its counterpart in the lower half.

`cell` and `colour` are famicore's `palette_index` and `color`.
-/

namespace Nes

/-- A colour as alpha, red, green and blue, eight bits each, alpha on top. -/
abbrev Pixel := UInt32

namespace Palette

/-- Red, green and blue of the 64 colours. -/
def master : Vector UInt32 64 :=
  #v[
    0x545454, 0x001E74, 0x081090, 0x300088, 0x440064, 0x5C0030, 0x540400, 0x3C1800,
    0x202A00, 0x083A00, 0x004000, 0x003C00, 0x00302C, 0x000000, 0x000000, 0x000000,
    0x989698, 0x084CC4, 0x3032EC, 0x5C1EE4, 0x8814B0, 0xA01464, 0x982220, 0x783C00,
    0x545A00, 0x287200, 0x087C00, 0x007628, 0x006678, 0x000000, 0x000000, 0x000000,
    0xECEEEC, 0x3C7EEC, 0x5C5CEC, 0x8844EC, 0xB02CEC, 0xE028B0, 0xD83C50, 0xC45400,
    0xAC7000, 0x808800, 0x409C30, 0x20A458, 0x209A88, 0x404040, 0x000000, 0x000000,
    0xECEEEC, 0xA8BCEC, 0xBCACEC, 0xD4A0EC, 0xEC94EC, 0xEC90D4, 0xEC9CB4, 0xE4B090,
    0xDCC878, 0xD4DC78, 0xB8EC98, 0xA8ECBC, 0xA0E4E4, 0xA0A0A0, 0x000000, 0x000000
  ]

/-- The pixel of a palette entry, of which six bits count.  It hides what is behind it. -/
@[inline] def colour (entry : UInt8) : Pixel :=
  have := Nat.mod_lt entry.toNat (show 0 < 64 by decide)
  0xFF000000 ||| master[entry.toNat % 64]

/-- The cell that an address in palette space reaches. -/
@[inline] def cell (addr : UInt16) : UInt16 :=
  let i := addr &&& 0x1F
  if i &&& 0x13 == 0x10 then i &&& 0x0F else i

theorem cell_lt (addr : UInt16) : (cell addr).toNat < 32 := by
  have hlow : (addr &&& 0x1F).toNat < 32 := by
    rw [UInt16.toNat_and]
    exact Nat.lt_of_le_of_lt Nat.and_le_right (by decide)
  unfold cell
  dsimp only
  split
  · rw [UInt16.toNat_and]
    exact Nat.lt_of_le_of_lt Nat.and_le_left hlow
  · exact hlow

theorem cell_eq_mod (addr : UInt16) : (cell addr).toNat = (cell addr).toNat % 32 :=
  (Nat.mod_eq_of_lt (cell_lt addr)).symm

end Palette

abbrev PaletteRam := Memory 32

end Nes
