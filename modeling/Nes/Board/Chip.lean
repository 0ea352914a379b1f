import Nes.Memory

/-!
# Memory chips of a cartridge

Program and character memory come in any size.  A byte outside reads as zero, a write outside is
dropped, and a chip smaller than a bank counts as one bank.

In famicore each board has these rules in its own `cpu_read`, `ppu_read` and `ppu_write`.
-/

namespace Nes

@[inline] def romByte (rom : Array UInt8) (offset : Nat) : UInt8 := rom.getD offset 0

/-- The number of whole banks in `size` bytes, and one where there is none. -/
@[inline] def bankCount (size bank : Nat) : Nat := max 1 (size / bank)

theorem bankCount_pos (size bank : Nat) : 0 < bankCount size bank := by
  simp only [bankCount]
  omega

/-- Character memory, which a board may let the picture unit write. -/
structure Chr where
  bytes : Array UInt8
  writable : Bool

namespace Chr

@[inline] def read (chr : Chr) (offset : Nat) : UInt8 := romByte chr.bytes offset

@[inline] def write (chr : Chr) (offset : Nat) (b : UInt8) : Chr :=
  match chr with
  | ⟨bytes, true⟩ => ⟨bytes.setIfInBounds offset b, true⟩
  | chr => chr

@[simp] theorem size_write (chr : Chr) (offset : Nat) (b : UInt8) :
    (chr.write offset b).bytes.size = chr.bytes.size := by
  rcases chr with ⟨bytes, _ | _⟩ <;> simp [write]

@[simp] theorem writable_write (chr : Chr) (offset : Nat) (b : UInt8) :
    (chr.write offset b).writable = chr.writable := by
  rcases chr with ⟨bytes, _ | _⟩ <;> rfl

theorem write_of_not_writable (chr : Chr) (offset : Nat) (b : UInt8) (h : chr.writable = false) :
    chr.write offset b = chr := by
  rcases chr with ⟨bytes, _ | _⟩
  · rfl
  · simp at h

end Chr

/-- The eight kilobytes of memory at `$6000` that a battery may keep. -/
abbrev PrgRam := Memory 0x2000

end Nes
