import Nes.Bus.Recorded
import Nes.Mainboard
import Nes.Proofs.Mainboard.Reads
import Nes.Proofs.Mmc3.Line

/-!
# The two interrupt lines under the processor's accesses

No access reaches the latch of the picture unit's interrupt.  The cartridge's line goes down only
with a write to the register that turns an MMC3's interrupts off, the even addresses from `$E000`
on.
-/

namespace Nes

/-! ### The latch -/

namespace Ppu

theorem nmi_readRegister (ppu : Ppu) (board : Board) (number : UInt8) :
    (ppu.readRegister board number).2.nmi = ppu.nmi := by
  obtain ⟨_, _, hread⟩ := ppu.readRegister_eq board number
  rw [hread]

/-- A register write leaves alone all that the dots raise and lower, and it reaches the board by
one write at most. -/
theorem writeRegister_eq (ppu : Ppu) (board : Board) (number b : UInt8) :
    ∃ scroll mask vram palette written, ppu.writeRegister board number b =
      ({ ppu with
        scroll, mask, vram, palette
        control := if number &&& 7 = 0 then b else ppu.control }, written) ∧
      (written = board ∨ ∃ addr, written = board.ppuWrite addr b) := by
  unfold writeRegister
  generalize number &&& 7 = register
  split
  case h_5 =>
    rw [if_neg (by decide)]
    unfold writeData
    dsimp only
    repeat' split
    · exact ⟨_, _, _, _, _, rfl, .inr ⟨_, rfl⟩⟩
    · exact ⟨_, _, _, _, _, rfl, .inl rfl⟩
    · exact ⟨_, _, _, _, _, rfl, .inl rfl⟩
  case h_6 hcontrol _ _ _ _ =>
    rw [if_neg hcontrol]
    exact ⟨_, _, _, _, _, rfl, .inl rfl⟩
  all_goals exact ⟨_, _, _, _, _, rfl, .inl rfl⟩

theorem nmi_writeRegister (ppu : Ppu) (board : Board) (number b : UInt8) :
    (ppu.writeRegister board number b).1.nmi = ppu.nmi := by
  obtain ⟨_, _, _, _, _, hwrite, -⟩ := ppu.writeRegister_eq board number b
  rw [hwrite]

end Ppu

/-! ### The line -/

/-- A write that turns an MMC3's interrupts off. -/
def Access.Acknowledges : Access → Prop
  | .read _ _ => False
  | .write addr _ => 0xE000 ≤ addr ∧ addr % 2 = 0

instance : DecidablePred Access.Acknowledges
  | .read _ _ => inferInstanceAs (Decidable False)
  | .write addr _ => inferInstanceAs (Decidable (0xE000 ≤ addr ∧ addr % 2 = 0))

namespace Board

theorem irqPending_cpuWrite (b : Board) {addr : UInt16} (v : UInt8)
    (h : ¬ (Access.write addr v).Acknowledges) :
    (b.cpuWrite addr v).irqPending = b.irqPending := by
  unfold cpuWrite
  split
  · rfl
  · cases b with
    | nrom b => rfl
    | uxrom b => rfl
    | mmc3 b =>
      have hkeeps : ¬ (Mmc3.Op.cpuWrite addr v).Acknowledges := h
      show (b.apply (.cpuWrite addr v)).irq.pending = b.irq.pending
      rw [Bool.eq_iff_iff, b.pending_apply]
      simp [hkeeps]

theorem irqPending_ppuWrite (b : Board) (addr : UInt16) (v : UInt8) :
    (b.ppuWrite addr v).irqPending = b.irqPending := by
  unfold ppuWrite
  split
  · cases b with
    | nrom b => rfl
    | uxrom b => rfl
    | mmc3 b =>
      show (b.apply (.ppuWrite addr v)).irq.pending = b.irq.pending
      rw [b.irq_apply]
      rfl
  · rfl

theorem irqPending_clockScanline (b : Board) (h : b.irqPending = true) :
    b.clockScanline.irqPending = true := by
  cases b with
  | nrom b => exact h
  | uxrom b => exact h
  | mmc3 b => exact (b.pending_apply .clock).2 (.inr ⟨h, fun hack => hack⟩)

end Board

theorem Ppu.irqPending_writeRegister (ppu : Ppu) (board : Board) (number b : UInt8) :
    (ppu.writeRegister board number b).2.irqPending = board.irqPending := by
  obtain ⟨_, _, _, _, written, hwrite, rfl | ⟨addr, rfl⟩⟩ := ppu.writeRegister_eq board number b
  · rw [hwrite]
  · rw [hwrite]
    exact board.irqPending_ppuWrite addr b

/-! ### Through the mainboard -/

namespace Mainboard

variable {α : Type} [AudioUnit α]

theorem nmi_read (m : Mainboard α) (addr : UInt16) :
    (Bus.read m addr).2.ppu.nmi = m.ppu.nmi := by
  show (m.read addr).2.ppu.nmi = m.ppu.nmi
  unfold read
  cases Owner.ofRead addr with
  | ppu => exact m.ppu.nmi_readRegister m.cartridge.board addr.toUInt8
  | _ => rfl

theorem nmi_write (m : Mainboard α) (addr : UInt16) (v : UInt8) :
    (Bus.write m addr v).ppu.nmi = m.ppu.nmi := by
  show (m.write addr v).ppu.nmi = m.ppu.nmi
  unfold write
  cases Owner.ofWrite addr with
  | ppu => exact m.ppu.nmi_writeRegister m.cartridge.board addr.toUInt8 v
  | cartridge =>
    simp only [writeBoard]
    split <;> rfl
  | _ => rfl

theorem irqPending_read (m : Mainboard α) (addr : UInt16) :
    (Bus.read m addr).2.irqPending = m.irqPending := by
  show (m.read addr).2.irqPending = m.irqPending
  unfold read
  cases Owner.ofRead addr <;> rfl

theorem irqPending_write (m : Mainboard α) {addr : UInt16} {v : UInt8}
    (h : ¬ (Access.write addr v).Acknowledges) :
    (Bus.write m addr v).irqPending = m.irqPending := by
  show (m.write addr v).irqPending = m.irqPending
  unfold write
  cases Owner.ofWrite addr with
  | ppu => exact m.ppu.irqPending_writeRegister m.cartridge.board addr.toUInt8 v
  | cartridge =>
    have hboard := m.cartridge.board.irqPending_cpuWrite v h
    simp only [writeBoard]
    split <;> exact hboard
  | _ => rfl

end Mainboard

end Nes
