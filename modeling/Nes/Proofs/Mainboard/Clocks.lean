import Nes.Console
import Nes.Proofs.Cpu.Accesses
import Nes.Proofs.Mainboard.Dots
import Nes.Proofs.Mainboard.Reads

/-!
# The clocks of the mainboard

Three things count time: the beam, the edge that tells of a finished frame, and the steps of the
audio unit.  No access of the processor moves any of them.  A row of dots moves the beam on, and it
raises the edge exactly when it brings the beam into another frame.
-/

namespace Nes

structure Clocks where
  beam : Beam
  frameReady : Bool
  audioSteps : Nat
deriving DecidableEq, Repr

namespace Mainboard

def clocks (m : Mainboard AudioLatch) : Clocks := ⟨m.ppu.beam, m.ppu.frameReady, m.audio.steps⟩

theorem clocks_congr {m other : Mainboard AudioLatch} (hbeam : m.ppu.beam = other.ppu.beam)
    (hready : m.ppu.frameReady = other.ppu.frameReady)
    (hsteps : m.audio.steps = other.audio.steps) : m.clocks = other.clocks := by
  unfold clocks
  rw [hbeam, hready, hsteps]

end Mainboard

/-! ### Accesses -/

namespace Ppu

variable (ppu : Ppu) (board : Board) (number : UInt8)

theorem clocks_readRegister : (ppu.readRegister board number).2.beam = ppu.beam ∧
    (ppu.readRegister board number).2.frameReady = ppu.frameReady := by
  obtain ⟨_, _, hread⟩ := ppu.readRegister_eq board number
  rw [hread]
  exact ⟨rfl, rfl⟩

theorem clocks_writeRegister (b : UInt8) : (ppu.writeRegister board number b).1.beam = ppu.beam ∧
    (ppu.writeRegister board number b).1.frameReady = ppu.frameReady := by
  obtain ⟨_, _, _, _, _, hwrite, -⟩ := ppu.writeRegister_eq board number b
  rw [hwrite]
  exact ⟨rfl, rfl⟩

end Ppu

theorem AudioLatch.steps_write (l : AudioLatch) (addr : UInt16) (v : UInt8) :
    (l.write addr v).steps = l.steps := by
  unfold write
  split <;> rfl

namespace Mainboard

variable (m : Mainboard AudioLatch)

theorem clocks_read (addr : UInt16) : (Bus.read m addr).2.clocks = m.clocks := by
  show (m.read addr).2.clocks = m.clocks
  unfold read
  cases Owner.ofRead addr with
  | ppu =>
    obtain ⟨hbeam, hready⟩ := m.ppu.clocks_readRegister m.cartridge.board addr.toUInt8
    exact clocks_congr hbeam hready rfl
  | _ => rfl

theorem clocks_write (addr : UInt16) (v : UInt8) : (Bus.write m addr v).clocks = m.clocks := by
  show (m.write addr v).clocks = m.clocks
  unfold write
  cases Owner.ofWrite addr with
  | ppu =>
    obtain ⟨hbeam, hready⟩ := m.ppu.clocks_writeRegister m.cartridge.board addr.toUInt8 v
    exact clocks_congr hbeam hready rfl
  | audio => exact clocks_congr rfl rfl (m.audio.steps_write addr v)
  | cartridge =>
    simp only [writeBoard]
    split <;> rfl
  | _ => rfl

end Mainboard

namespace Cpu

variable {cpu : ConsoleCpu} {k : Clocks}

theorem clocks_stepNoted (h : cpu.bus.clocks = k) : cpu.stepNoted.2.bus.clocks = k := by
  have hall : ∀ a ∈ cpu.stepAccesses, ¬ False := fun _ _ => id
  exact stepNoted_keeps (P := fun m : Mainboard AudioLatch => m.clocks = k)
    (fun m addr _ h => (m.clocks_read addr).trans h)
    (fun m addr v _ h => (m.clocks_write addr v).trans h) (fun _ _ h => h) hall h

theorem clocks_interrupt (vector : UInt16) (h : cpu.bus.clocks = k) :
    (cpu.interrupt vector).bus.clocks = k :=
  interrupt_keeps (P := fun m : Mainboard AudioLatch => m.clocks = k)
    (fun m addr h => (m.clocks_read addr).trans h)
    (fun m addr v _ h => (m.clocks_write addr v).trans h) vector h

theorem clocks_resetNoted (h : cpu.bus.clocks = k) : cpu.resetNoted.bus.clocks = k :=
  resetNoted_keeps (P := fun m : Mainboard AudioLatch => m.clocks = k)
    (fun m addr h => (m.clocks_read addr).trans h) (fun _ _ h => h) h

end Cpu

/-! ### Dots -/

namespace Beam

theorem frames_next (b : Beam) :
    b.next.frames = if b.next.atFrame then b.frames + 1 else b.frames := by
  obtain ⟨scanline, dot, frames⟩ := b
  unfold next
  dsimp only
  split
  · split
    · rfl
    · have hline : (scanline + 1 == 0) = false := rfl
      simp only [atFrame, hline, Bool.and_false]
      rfl
  · have hdot : (dot + 1 == 0) = false := rfl
    simp only [atFrame, hdot, Bool.false_and]
    rfl

end Beam

namespace Ppu

theorem frameReady_tick (ppu : Ppu) (board : Board) :
    (ppu.tick board).frameReady = (ppu.frameReady || ppu.beam.next.atFrame) := by
  rw [tick_eq]

end Ppu

namespace Mainboard

variable (m : Mainboard AudioLatch)

theorem audio_tick : m.tick.audio = m.audio := by
  unfold tick
  dsimp only
  split <;> rfl

theorem audio_ticks (n : Nat) : (m.ticks n).audio = m.audio := by
  induction n with
  | zero => rfl
  | succ n ih => rw [ticks_succ, audio_tick, ih]

/-- A dot at which nothing happens moves the beam alone. -/
theorem tick_quiet (hblank : m.ppu.beam.next.atVblank = false)
    (hpre : m.ppu.beam.next.atPreRender = false) (hline : m.ppu.beam.next.atVisibleLine = false) :
    m.tick = { m with ppu := { m.ppu with beam := m.ppu.beam.next } } := by
  have hframe : m.ppu.beam.next.atFrame = false := by
    cases hframe : m.ppu.beam.next.atFrame with
    | false => rfl
    | true =>
      simp only [Beam.atFrame, Beam.atVisibleLine, Bool.and_eq_true, beq_iff_eq] at hframe hline
      rw [hframe.1, hframe.2] at hline
      cases hline
  have hppu : m.ppu.tick m.cartridge.board = { m.ppu with beam := m.ppu.beam.next } := by
    unfold Ppu.tick
    dsimp only
    rw [if_neg (by simp [hblank]), if_neg (by simp [hpre]), if_neg (by simp [hframe])]
  unfold tick onPicture Ppu.step
  dsimp only
  rw [hppu]
  dsimp only
  rw [if_neg (by simp [hframe]), if_neg (by simp [hline])]

/-- Dots inside a visible line move the beam alone. -/
theorem ticks_visible (n : Nat) (hline : m.ppu.beam.scanline < Beam.visibleLines)
    (hdot : m.ppu.beam.dot + n < Beam.dotsPerLine) : m.ticks n =
      { m with ppu := { m.ppu with beam := { m.ppu.beam with dot := m.ppu.beam.dot + n } } } := by
  induction n with
  | zero => rfl
  | succ n ih =>
    have hnext : Beam.next { m.ppu.beam with dot := m.ppu.beam.dot + n } =
        { m.ppu.beam with dot := m.ppu.beam.dot + n + 1 } := by
      exact if_neg (Nat.ne_of_lt hdot)
    have hblank : (m.ppu.beam.scanline == Beam.vblankLine) = false :=
      beq_false_of_ne (Nat.ne_of_lt (Nat.lt_trans hline (by decide)))
    have hpre : (m.ppu.beam.scanline == Beam.preRenderLine) = false :=
      beq_false_of_ne (Nat.ne_of_lt (Nat.lt_trans hline (by decide)))
    have hstart : (m.ppu.beam.dot + n + 1 == 0) = false := rfl
    rw [ticks_succ, ih (Nat.lt_of_succ_lt hdot), tick_quiet]
    all_goals rw [hnext]
    · rfl
    · simp only [Beam.atVblank, hblank, Bool.and_false]
    · simp only [Beam.atPreRender, hpre, Bool.and_false]
    · simp only [Beam.atVisibleLine, hstart, Bool.false_and]

theorem valid_ticks (n : Nat) (h : m.ppu.beam.Valid) : (m.ticks n).ppu.beam.Valid := by
  induction n with
  | zero => exact h
  | succ n ih =>
    rw [ticks_succ, ppu_tick, Ppu.beam_tick]
    exact Beam.valid_next _ ih

/-- The frame edge after a row of dots: up if it was up, or if a frame was finished meanwhile. -/
theorem frames_ticks (n : Nat) : m.ppu.beam.frames ≤ (m.ticks n).ppu.beam.frames ∧
    ((m.ticks n).ppu.frameReady = true ↔
      m.ppu.frameReady = true ∨ m.ppu.beam.frames < (m.ticks n).ppu.beam.frames) := by
  induction n with
  | zero => simp [ticks]
  | succ n ih =>
    obtain ⟨hle, hedge⟩ := ih
    rw [ticks_succ, ppu_tick, Ppu.beam_tick, Beam.frames_next, Ppu.frameReady_tick, Bool.or_eq_true,
      hedge]
    cases (m.ticks n).ppu.beam.next.atFrame with
    | true =>
      rw [if_pos rfl]
      refine ⟨by omega, ?_⟩
      constructor
      · intro _
        exact .inr (by omega)
      · intro _
        exact .inr rfl
    | false =>
      rw [if_neg (by decide)]
      exact ⟨hle, by simp⟩

end Mainboard

end Nes
