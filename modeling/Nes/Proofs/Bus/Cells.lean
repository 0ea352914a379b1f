import Nes.Bus.Flat
import Nes.Proofs.History
import Nes.Proofs.Mainboard.Stack

/-!
# Cells that remember

A bus may answer as it likes, but some of its cells may be memory: a read of one returns the byte
last written there and changes nothing.  All that is asked of such cells is what reads of them
return, so that a bus with more to it than its cells can have them too.  Every cell of a flat memory
is one.  On the console the cells of its own memory are, taken once each.
-/

namespace Nes

namespace Bus

variable {β : Type} [Bus β]

/-- The byte that a read of the cell returns. -/
def shown (bus : β) (addr : UInt16) : UInt8 := (Bus.read bus addr).1

/-- Writes made one after the other. -/
def writeAll (bus : β) (writes : List (UInt16 × UInt8)) : β :=
  writes.foldl (fun bus w => Bus.write bus w.1 w.2) bus

/-- The byte that a write leaves in the cell, if it is one to this cell. -/
def left? (addr : UInt16) (w : UInt16 × UInt8) : Option UInt8 :=
  if w.1 = addr then some w.2 else none

theorem getD_left? (addr : UInt16) (w : UInt16 × UInt8) (before : UInt8) :
    (left? addr w).getD before = if w.1 = addr then w.2 else before := by
  unfold left?
  split <;> rfl

/-- The cells are memory from here on: after any writes to them, a read of one returns the byte
last written there, or else the one that it showed before them, and changes nothing. -/
def Remembers (bus : β) (cells : List UInt16) : Prop :=
  ∀ writes : List (UInt16 × UInt8), (∀ w ∈ writes, w.1 ∈ cells) → ∀ addr ∈ cells,
    Bus.read (writeAll bus writes) addr =
      (History.latest (left? addr) (shown bus addr) writes, writeAll bus writes)

namespace Remembers

variable {bus : β} {cells : List UInt16} {addr other : UInt16}

theorem read (h : Remembers bus cells) (haddr : addr ∈ cells) :
    Bus.read bus addr = (shown bus addr, bus) :=
  h [] (by simp) addr haddr

theorem shown_write (h : Remembers bus cells) (haddr : addr ∈ cells) (hother : other ∈ cells)
    (v : UInt8) :
    shown (Bus.write bus addr v) other = if addr = other then v else shown bus other := by
  have hread := h [(addr, v)] (by simpa using haddr) other hother
  rw [History.latest_cons, getD_left?] at hread
  exact congrArg Prod.fst hread

theorem write (h : Remembers bus cells) (haddr : addr ∈ cells) (v : UInt8) :
    Remembers (Bus.write bus addr v) cells := by
  intro writes hwrites other hother
  have hread := h ((addr, v) :: writes) (List.forall_mem_cons.2 ⟨haddr, hwrites⟩) other hother
  rw [History.latest_cons, getD_left?, ← h.shown_write haddr hother] at hread
  exact hread

/-- Cells are memory if in no state a read of one changes anything, and a write to one shows in that
cell alone. -/
theorem of_laws (hread : ∀ (b : β), ∀ addr ∈ cells, (Bus.read b addr).2 = b)
    (hwrite : ∀ (b : β) (v : UInt8), ∀ addr ∈ cells, ∀ other ∈ cells,
      shown (Bus.write b addr v) other = if addr = other then v else shown b other) :
    Remembers bus cells := by
  intro writes
  induction writes generalizing bus with
  | nil => exact fun _ addr haddr => Prod.ext rfl (hread bus addr haddr)
  | cons w writes ih =>
    intro hwrites other hother
    obtain ⟨hw, hrest⟩ := List.forall_mem_cons.1 hwrites
    rw [History.latest_cons, getD_left?, ← hwrite bus w.2 w.1 hw other hother]
    exact ih hrest other hother

end Remembers

end Bus

theorem FlatMemory.remembers (m : FlatMemory) (cells : List UInt16) : Bus.Remembers m cells :=
  .of_laws (fun _ _ _ => rfl) fun m v addr _ other _ => m.get_set addr other v

/-- Cells of the console's own memory, no two of them mirrors of one cell. -/
theorem Mainboard.remembers {α : Type} [AudioUnit α] (m : Mainboard α) {cells : List UInt16}
    (hram : ∀ addr ∈ cells, addr < 0x2000)
    (hmirrors : ∀ addr ∈ cells, ∀ other ∈ cells,
      addr.toNat % 0x800 = other.toNat % 0x800 → addr = other) : Bus.Remembers m cells := by
  refine .of_laws (fun m addr haddr => ?_) fun m v addr haddr other hother => ?_
  · rw [m.read_ram (hram addr haddr)]
  · unfold Bus.shown
    rw [m.write_ram v (hram addr haddr), read_ram _ (hram other hother),
      read_ram _ (hram other hother)]
    dsimp only [onRam]
    split
    case isTrue h => rw [h, Memory.get_set_self]
    case isFalse h =>
      exact m.ram.get_set_of_mod_ne v fun hcell => h (hmirrors addr haddr other hother hcell)

end Nes
