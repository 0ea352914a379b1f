import Nes.Proofs.Console.Faults
import Nes.Proofs.Mainboard.ProgramSide

/-!
# The two timings

How many dots a step is worth moves the picture unit alone.  A program that never asks the picture
unit for its status or data, and never turns an interrupt on, therefore runs the same under both
timings, however far the two pictures drift apart: every step returns the same, and the registers
and all that the program can see stay equal.
-/

namespace Nes

theorem Board.Disarmed.loadTrainer {b : Board} (h : b.Disarmed) (trainer : Array UInt8) :
    (b.loadTrainer trainer).2.Disarmed := by
  unfold Board.loadTrainer
  split
  · cases b <;> exact h
  · exact h

theorem Cartridge.disarmed_of_load {data : Array UInt8} {cartridge : Cartridge}
    (h : ofBytes data = .ok cartridge) : cartridge.board.Disarmed := by
  obtain ⟨image, board, -, hboard, -, hloaded⟩ := loaded h
  have hfresh : board.Disarmed := by
    rcases boardOf?_cases hboard with ⟨-, rfl⟩ | ⟨-, rfl⟩ | ⟨-, rfl⟩
    · trivial
    · trivial
    · exact ⟨rfl, rfl⟩
  rcases hloaded with heq | heq
  · rw [heq]
    exact hfresh
  · rw [heq]
    exact hfresh.loadTrainer image.trainer

namespace Console

open Mainboard

/-! ### Runs that do not observe the picture unit -/

/-- No step of a run observes the picture unit. -/
def Unobservant (c : Console) : List Act → Prop
  | [] => True
  | act :: acts =>
    (act = .step → ∀ a ∈ c.cpu.stepAccesses, ¬ a.Observes c.cpu.bus.cartridge.board.id) ∧
      (c.apply act).Unobservant acts

/-- What the steps of a run return. -/
def results (c : Console) : List Act → List (Except UnknownOpcode StepReport)
  | [] => []
  | .step :: acts => c.step.1 :: c.step.2.results acts
  | act :: acts => (c.apply act).results acts

variable {c d : Console} {id : UInt8}

/-! ### Two consoles side by side -/

/-- The same registers over mainboards that a program cannot tell apart. -/
def Alongside (id : UInt8) (c d : Console) : Prop := Cpu.Related (SameView id) c.cpu d.cpu

theorem deliver_alongside {p : ConsoleCpu} (h : p.bus.Quiet) : deliver p = (none, p) :=
  deliver_quiet h.latch h.disarmed.irqPending

theorem step_alongside (h : Alongside id c d)
    (hgood : ∀ a ∈ c.cpu.stepAccesses, ¬ a.Observes id) :
    c.step.1 = d.step.1 ∧ Alongside id c.step.2 d.step.2 := by
  obtain ⟨p, t⟩ := c
  obtain ⟨q, u⟩ := d
  have hstep := Cpu.stepNoted_alike SameView.simulation
    (fun f h => h.onJournal f) (fun f h => h.onJournal' f) h hgood
  obtain ⟨result, p', q', hp, hq, hstate⟩ := hstep.parts
  dsimp only at hp hq
  unfold Alongside step
  dsimp only
  rw [hp, hq]
  cases result with
  | error e => exact ⟨rfl, hstate⟩
  | ok cycles =>
    -- the two rows of dots differ in length, and neither raises an interrupt
    have hdots := hstate.onBus fun h => h.ticks (t.dots cycles) (u.dots cycles)
    dsimp only
    rw [deliver_alongside hdots.bus.quiet, deliver_alongside hdots.bus.quiet']
    exact ⟨rfl, hdots.onBus fun h => h.stepAudio⟩

theorem resetEntry_congr {board other : Board} (h : board.programSide = other.programSide) :
    Cpu.resetEntry board = Cpu.resetEntry other := by
  unfold Cpu.resetEntry
  rw [← board.cpuRead_programSide, ← board.cpuRead_programSide, h, Board.cpuRead_programSide,
    Board.cpuRead_programSide]

theorem resetNoted_alongside {p q : ConsoleCpu} (h : Cpu.Related (SameView id) p q) :
    Cpu.Related (SameView id) p.resetNoted q.resetNoted := by
  cases h with
  | @mk r m other h =>
    have hentry := resetEntry_congr (congrArg ProgramView.board h.view)
    rw [Cpu.resetNoted_eq, Cpu.resetNoted_eq, hentry]
    exact .mk _ ((h.onJournal _).onJournal' _)

theorem apply_alongside (h : Alongside id c d) {act : Act} (hact : act ≠ .step) :
    Alongside id (c.apply act) (d.apply act) := by
  unfold Alongside at h ⊢
  cases act with
  | step => exact absurd rfl hact
  | poll => exact h.onBus fun h => h.takeFrameReady
  | reset => exact resetNoted_alongside h
  | pad socket change => exact h.onBus fun h => h.setPad socket change

theorem run_alongside {acts : List Act} (h : Alongside id c d) (hgood : c.Unobservant acts) :
    d.results acts = c.results acts ∧ Alongside id (c.run acts) (d.run acts) := by
  induction acts generalizing c d with
  | nil => exact ⟨rfl, h⟩
  | cons act acts ih =>
    obtain ⟨hfirst, hrest⟩ := hgood
    rw [h.bus.id] at hfirst
    cases act with
    | step =>
      obtain ⟨hresult, hstep⟩ := step_alongside h (hfirst rfl)
      obtain ⟨hresults, hrun⟩ := ih hstep hrest
      refine ⟨?_, hrun⟩
      show d.step.1 :: _ = c.step.1 :: _
      rw [hresult]
      exact congrArg (List.cons _) hresults
    | poll => exact ih (apply_alongside h (by simp)) hrest
    | reset => exact ih (apply_alongside h (by simp)) hrest
    | pad socket change => exact ih (apply_alongside h (by simp)) hrest

/-! ### From power on -/

theorem powerOn_alongside {image : Array UInt8} {cartridge : Cartridge}
    (hload : Cartridge.ofBytes image = .ok cartridge) (journal : Journal) (t u : Timing) :
    Alongside cartridge.board.id (powerOn cartridge t journal) (powerOn cartridge u journal) := by
  have hmasked : Ppu.powerOn.nmiEnabled = false := by decide
  have hquiet : (Mainboard.powerOn cartridge ({} : AudioLatch) journal).Quiet :=
    ⟨rfl, hmasked, Cartridge.disarmed_of_load hload⟩
  have hsame : SameView cartridge.board.id (Mainboard.powerOn cartridge ({} : AudioLatch) journal)
      (Mainboard.powerOn cartridge {} journal) := ⟨rfl, rfl, hquiet, hquiet⟩
  have hstart := resetNoted_alongside (.mk {} hsame)
  unfold Alongside powerOn
  exact hstart

/-- As long as a run does not observe the picture unit, the same run under the other timing returns
the same from each step, and leaves the registers and all that the program can see the same. -/
theorem timings_alike_unobserved {image : Array UInt8} {cartridge : Cartridge}
    (hload : Cartridge.ofBytes image = .ok cartridge) (journal : Journal) (t u : Timing)
    (acts : List Act) (hgood : (powerOn cartridge t journal).Unobservant acts) :
    let c := powerOn cartridge t journal
    let d := powerOn cartridge u journal
    d.results acts = c.results acts ∧
      (d.run acts).cpu.toRegisters = (c.run acts).cpu.toRegisters ∧
      (d.run acts).cpu.bus.programView = (c.run acts).cpu.bus.programView := by
  intro c d
  obtain ⟨hresults, hrun⟩ := run_alongside (powerOn_alongside hload journal t u) hgood
  exact ⟨hresults, hrun.registers.symm, hrun.bus.view.symm⟩

/-- An MMC3 image that is a header alone: all memory reads as zero, which is `BRK`. -/
def bareImage : Array UInt8 := #[0x4E, 0x45, 0x53, 0x1A, 0, 0, 0x40, 0, 0, 0, 0, 0, 0, 0, 0, 0]

def bare : Cartridge where
  header := ⟨0, 0, 4, .horizontal, false, false⟩
  trainer := none
  board := .mmc3 (.powerOn #[] ⟨.replicate 0x2000 0, true⟩ .horizontal)

theorem load_bare : Cartridge.ofBytes bareImage = .ok bare := by
  rfl

/-- Two instructions with a button pressed in between. -/
def pressStart : List Act := [.step, .pad .first (·.setButton .start true), .step]

theorem pressStart_unobserved :
    let c := powerOn bare .instruction ⟨none, #[]⟩
    let d := powerOn bare .cycle ⟨none, #[]⟩
    (∀ a ∈ c.cpu.stepAccesses, ¬ a.Observes c.cpu.bus.cartridge.board.id) ∧
      (∀ a ∈ (c.run (pressStart.take 2)).cpu.stepAccesses,
        ¬ a.Observes (c.run (pressStart.take 2)).cpu.bus.cartridge.board.id) ∧
      (d.run pressStart).cpu.bus.ppu.beam ≠ (c.run pressStart).cpu.bus.ppu.beam := by
  decide +kernel

/-- The pictures drift apart and the program cannot tell. -/
theorem timings_alike_unobserved_bare :
    let c := powerOn bare .instruction ⟨none, #[]⟩
    let d := powerOn bare .cycle ⟨none, #[]⟩
    Cartridge.ofBytes bareImage = .ok bare ∧ c.Unobservant pressStart ∧
      (d.results pressStart = c.results pressStart ∧
        (d.run pressStart).cpu.toRegisters = (c.run pressStart).cpu.toRegisters ∧
        (d.run pressStart).cpu.bus.programView = (c.run pressStart).cpu.bus.programView) ∧
      (d.run pressStart).cpu.bus.ppu.beam ≠ (c.run pressStart).cpu.bus.ppu.beam := by
  obtain ⟨hfirst, hsecond, hbeams⟩ := pressStart_unobserved
  have hgood : (powerOn bare .instruction ⟨none, #[]⟩).Unobservant pressStart :=
    ⟨fun _ => hfirst, nofun, fun _ => hsecond, trivial⟩
  have halike := timings_alike_unobserved load_bare ⟨none, #[]⟩ .instruction .cycle pressStart hgood
  exact ⟨load_bare, hgood, halike, hbeams⟩

end Console

end Nes
