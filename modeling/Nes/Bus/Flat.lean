import Nes.Bus
import Nes.Memory

/-!
# Flat memory

Every address holds a byte of its own: a read returns the byte last written there and changes
nothing.

famicore's tests of the processor run on such a bus, `TestBus`.
-/

namespace Nes

/-- The whole address space as plain memory. -/
abbrev FlatMemory := Memory 0x10000

namespace FlatMemory

instance : Bus FlatMemory where
  read m addr := (m.get addr, m)
  write := Memory.set

theorem mod_ne {addr other : UInt16} (h : addr ≠ other) :
    addr.toNat % 0x10000 ≠ other.toNat % 0x10000 := by
  have h1 := addr.toNat_lt
  have h2 := other.toNat_lt
  have h3 : addr.toNat ≠ other.toNat := fun e => h (UInt16.toNat_inj.1 e)
  omega

theorem get_set (m : FlatMemory) (addr other : UInt16) (b : UInt8) :
    (m.set addr b).get other = if addr = other then b else m.get other := by
  by_cases h : addr = other
  · simp [h]
  · simp [h, m.get_set_of_mod_ne b (mod_ne h)]

end FlatMemory

end Nes
