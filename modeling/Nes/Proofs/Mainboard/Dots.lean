import Nes.Proofs.Mainboard.Lines

/-!
# The dots of a step

Through a row of dots the control byte stays as it is and the beam moves on by one dot at a time.
The vertical blank begins 6820 dots before the line that clears it, so a shorter row of dots that
starts with the latch clear leaves it set exactly when one of its dots began the vertical blank
with the interrupt enabled.  The cartridge's line only rises.
-/

namespace Nes

/-! ### One dot -/

namespace Beam

theorem elapsed_of_atVblank {b : Beam} (h : b.atVblank = true) :
    b.elapsed = (b.frames * 262 + 241) * 341 + 1 := by
  simp only [atVblank, Bool.and_eq_true, beq_iff_eq] at h
  unfold elapsed
  rw [h.1, h.2]
  rfl

theorem elapsed_of_atPreRender {b : Beam} (h : b.atPreRender = true) :
    b.elapsed = (b.frames * 262 + 261) * 341 + 1 := by
  simp only [atPreRender, Bool.and_eq_true, beq_iff_eq] at h
  unfold elapsed
  rw [h.1, h.2]
  rfl

theorem not_atPreRender_of_atVblank {b : Beam} (h : b.atVblank = true) :
    b.atPreRender = false := by
  simp only [atVblank, Bool.and_eq_true, beq_iff_eq] at h
  simp [atPreRender, h, vblankLine, preRenderLine]

theorem not_atFrame {b : Beam} (h : b.atVblank = true ∨ b.atPreRender = true) :
    b.atFrame = false := by
  have hdot : b.dot = 1 := by
    simp only [atVblank, atPreRender, Bool.and_eq_true, beq_iff_eq] at h
    rcases h with ⟨h, _⟩ | ⟨h, _⟩ <;> exact h
  simp [atFrame, hdot]

end Beam

namespace Ppu

variable (ppu : Ppu) (board : Board)

/-- A tick moves the beam, and the place that it gets to decides about all else. -/
theorem tick_eq : ppu.tick board = { ppu with
    beam := ppu.beam.next
    scroll := if ppu.beam.next.atPreRender && ppu.rendering then ppu.scroll.restart else ppu.scroll
    vblank := if ppu.beam.next.atVblank then true
      else if ppu.beam.next.atPreRender then false
      else ppu.vblank
    nmi := if ppu.beam.next.atVblank then ppu.nmi || ppu.nmiEnabled
      else if ppu.beam.next.atPreRender then false
      else ppu.nmi
    frameReady := ppu.frameReady || ppu.beam.next.atFrame
    frame := if ppu.beam.next.atFrame then ppu.background.render board.ppuRead else ppu.frame } := by
  unfold tick
  dsimp only
  cases hblank : ppu.beam.next.atVblank with
  | true =>
    rw [Beam.not_atPreRender_of_atVblank hblank, Beam.not_atFrame (.inl hblank), Bool.or_false]
    rfl
  | false =>
    cases hpre : ppu.beam.next.atPreRender with
    | true =>
      rw [Beam.not_atFrame (.inr hpre), Bool.or_false, Bool.true_and]
      show leaveVblank _ = _
      unfold leaveVblank rendering
      dsimp only
      split <;> rfl
    | false =>
      cases ppu.beam.next.atFrame with
      | true =>
        rw [Bool.or_true]
        rfl
      | false =>
        rw [Bool.or_false]
        rfl

theorem beam_tick : (ppu.tick board).beam = ppu.beam.next := by
  rw [tick_eq]

theorem control_tick : (ppu.tick board).control = ppu.control := by
  rw [tick_eq]

theorem nmi_tick : (ppu.tick board).nmi =
    if ppu.beam.next.atVblank then ppu.nmi || ppu.nmiEnabled
    else if ppu.beam.next.atPreRender then false
    else ppu.nmi := by
  rw [tick_eq]

end Ppu

namespace Mainboard

variable {α : Type} (m : Mainboard α)

theorem ppu_tick : m.tick.ppu = m.ppu.tick m.cartridge.board := by
  unfold tick
  dsimp only
  split <;> rfl

theorem board_tick : m.tick.cartridge.board =
    if m.ppu.beam.next.atVisibleLine then m.cartridge.board.clockScanline
    else m.cartridge.board := by
  rw [← m.ppu.beam_tick m.cartridge.board]
  unfold tick
  dsimp only
  split <;> rfl

theorem irqPending_tick (h : m.irqPending = true) : m.tick.irqPending = true := by
  unfold irqPending
  rw [board_tick]
  split
  · exact m.cartridge.board.irqPending_clockScanline h
  · exact h

/-! ### Rows of dots -/

theorem ticks_succ (n : Nat) : m.ticks (n + 1) = (m.ticks n).tick := by
  induction n generalizing m with
  | zero => rfl
  | succ n ih => rw [ticks, ih m.tick, ticks]

theorem nmiEnabled_ticks (n : Nat) : (m.ticks n).ppu.nmiEnabled = m.ppu.nmiEnabled := by
  induction n with
  | zero => rfl
  | succ n ih =>
    rw [ticks_succ, ppu_tick, ← ih]
    unfold Ppu.nmiEnabled
    rw [Ppu.control_tick]

theorem elapsed_ticks (n : Nat) : (m.ticks n).ppu.beam.elapsed = m.ppu.beam.elapsed + n := by
  induction n with
  | zero => rw [ticks, Nat.add_zero]
  | succ n ih => rw [ticks_succ, ppu_tick, Ppu.beam_tick, Beam.elapsed_next, ih, Nat.add_assoc]

theorem irqPending_ticks (n : Nat) (h : m.irqPending = true) : (m.ticks n).irqPending = true := by
  induction n with
  | zero => exact h
  | succ n ih =>
    rw [ticks_succ]
    exact (m.ticks n).irqPending_tick ih

/-- Dot `k`, counted from zero, begins the vertical blank. -/
def BeginsVblank (k : Nat) : Prop :=
  (m.ticks (k + 1)).ppu.beam.scanline = 241 ∧ (m.ticks (k + 1)).ppu.beam.dot = 1

theorem beginsVblank_iff (k : Nat) :
    m.BeginsVblank k ↔ (m.ticks (k + 1)).ppu.beam.atVblank = true := by
  unfold BeginsVblank Beam.atVblank Beam.vblankLine
  rw [Bool.and_eq_true, beq_iff_eq, beq_iff_eq, and_comm]

/-- The dots of less than a frame begin the vertical blank at most once. -/
theorem beginsVblank_unique {j k : Nat} (hj : m.BeginsVblank j) (hk : m.BeginsVblank k)
    (hclose : j < k + 89342 ∧ k < j + 89342) : j = k := by
  have hj' := Beam.elapsed_of_atVblank ((m.beginsVblank_iff j).1 hj)
  have hk' := Beam.elapsed_of_atVblank ((m.beginsVblank_iff k).1 hk)
  rw [elapsed_ticks] at hj' hk'
  omega

/-- The line before the first visible one comes too late to clear a latch that one of the dots
set. -/
theorem not_atPreRender {j k : Nat} (hj : m.BeginsVblank j) (hlate : j ≤ k)
    (hclose : k < j + 6820) : (m.ticks (k + 1)).ppu.beam.atPreRender = false := by
  cases hpre : (m.ticks (k + 1)).ppu.beam.atPreRender with
  | false => rfl
  | true =>
    have hj' := Beam.elapsed_of_atVblank ((m.beginsVblank_iff j).1 hj)
    have hk' := Beam.elapsed_of_atPreRender hpre
    rw [elapsed_ticks] at hj' hk'
    omega

theorem nmi_ticks_succ (n : Nat) : (m.ticks (n + 1)).ppu.nmi =
    if (m.ticks (n + 1)).ppu.beam.atVblank then (m.ticks n).ppu.nmi || m.ppu.nmiEnabled
    else if (m.ticks (n + 1)).ppu.beam.atPreRender then false
    else (m.ticks n).ppu.nmi := by
  rw [ticks_succ, ppu_tick, Ppu.nmi_tick, Ppu.beam_tick, nmiEnabled_ticks]

/-- A row of dots that starts with a clear latch sets it exactly by beginning the vertical blank
with the interrupt enabled. -/
theorem nmi_ticks {n : Nat} (hn : n ≤ 6820) (h : m.ppu.nmi = false) :
    (m.ticks n).ppu.nmi = true ↔ m.ppu.nmiEnabled = true ∧ ∃ k < n, m.BeginsVblank k := by
  induction n with
  | zero => simp [ticks, h]
  | succ n ih =>
    have ih := ih (Nat.le_of_succ_le hn)
    have hmore : (∃ k < n + 1, m.BeginsVblank k) ↔
        m.BeginsVblank n ∨ ∃ k < n, m.BeginsVblank k := by
      rw [Nat.exists_lt_succ_right, or_comm]
    rw [nmi_ticks_succ, hmore]
    cases hblank : (m.ticks (n + 1)).ppu.beam.atVblank with
    | true =>
      have hnow : m.BeginsVblank n := (m.beginsVblank_iff n).2 hblank
      rw [if_pos rfl, Bool.or_eq_true, ih]
      constructor
      · rintro (⟨henabled, _⟩ | henabled)
        · exact ⟨henabled, .inl hnow⟩
        · exact ⟨henabled, .inl hnow⟩
      · rintro ⟨henabled, _⟩
        exact .inr henabled
    | false =>
      have hnot : ¬ m.BeginsVblank n := by
        rw [beginsVblank_iff, hblank]
        decide
      rw [if_neg (by decide), or_iff_right hnot, ← ih]
      cases hpre : (m.ticks (n + 1)).ppu.beam.atPreRender with
      | false => rw [if_neg (by decide)]
      | true =>
        rw [if_pos rfl, ih]
        constructor
        · intro hfalse
          cases hfalse
        · rintro ⟨_, k, hk, hbegins⟩
          have hclear := m.not_atPreRender hbegins (Nat.le_of_lt hk) (by omega)
          rw [hpre] at hclear
          cases hclear

end Mainboard

end Nes
