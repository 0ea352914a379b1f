import Nes.Word

/-!
# Memory blocks

A block of `size` cells that repeats through the whole address space: an address reaches the
cell of its remainder.  Two addresses share a cell exactly when they agree modulo `size`; a read
returns the last byte written to the shared cell.

famicore reduces addresses so in `read` and `write` of its bus and in `vram_read` and `peek_vram`
of its picture unit.
-/

namespace Nes

/-- Sizes that a block can have: it holds a cell at least. -/
class MemorySize (size : Nat) : Prop where
  pos : 0 < size

instance : MemorySize 32 := ⟨by decide⟩
instance : MemorySize 0x800 := ⟨by decide⟩
instance : MemorySize 0x2000 := ⟨by decide⟩
instance : MemorySize 0x4000 := ⟨by decide⟩
instance : MemorySize 0x10000 := ⟨by decide⟩

/-- A block of `size` byte cells. -/
structure Memory (size : Nat) where
  cells : Vector UInt8 size
deriving DecidableEq

namespace Memory

variable {size : Nat}

def filled (b : UInt8) : Memory size := ⟨Vector.replicate size b⟩

instance : Inhabited (Memory size) := ⟨filled 0⟩

def toArray (m : Memory size) : Array UInt8 := m.cells.toArray

@[simp] theorem size_toArray (m : Memory size) : m.toArray.size = size := m.cells.size_toArray

/-- The bytes written over the cells from `offset` on, as far as the block reaches. -/
def overlay (m : Memory size) (offset : Nat) : List UInt8 → Memory size
  | [] => m
  | b :: rest => overlay ⟨m.cells.setIfInBounds offset b⟩ (offset + 1) rest

section Access

variable [MemorySize size]

@[inline] def get (m : Memory size) (addr : UInt16) : UInt8 :=
  have := Nat.mod_lt addr.toNat (MemorySize.pos)
  m.cells[addr.toNat % size]

@[inline] def set (m : Memory size) (addr : UInt16) (b : UInt8) : Memory size :=
  match m with
  | ⟨cells⟩ => ⟨cells.set (addr.toNat % size) b (Nat.mod_lt _ (MemorySize.pos))⟩

def setBytes (m : Memory size) (addr : UInt16) : List UInt8 → Memory size
  | [] => m
  | b :: rest => setBytes (m.set addr b) (addr + 1) rest

def getBytes (m : Memory size) (addr : UInt16) (count : Nat) : List UInt8 :=
  (List.range count).map fun i => m.get (addr + i.toUInt16)

@[simp] theorem get_filled (b : UInt8) (addr : UInt16) :
    (filled b : Memory size).get addr = b := by
  simp [get, filled]

theorem get_set_of_mod_eq (m : Memory size) {addr other : UInt16} (b : UInt8)
    (h : addr.toNat % size = other.toNat % size) : (m.set addr b).get other = b := by
  simp [get, set, h]

theorem get_set_of_mod_ne (m : Memory size) {addr other : UInt16} (b : UInt8)
    (h : addr.toNat % size ≠ other.toNat % size) : (m.set addr b).get other = m.get other := by
  simp [get, set, h]

@[simp] theorem get_set_self (m : Memory size) (addr : UInt16) (b : UInt8) :
    (m.set addr b).get addr = b :=
  m.get_set_of_mod_eq b rfl

end Access

end Memory

end Nes
