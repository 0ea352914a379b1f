import Mathlib.Algebra.GroupWithZero.Nat
import Nes.Proofs.Console.Interrupts
import Nes.Proofs.Mainboard.Clocks

/-!
# Accounts

The processor counts cycles, the beam counts dots and the audio unit its steps.  A step that runs an
instruction adds to all three what its report tells: the cycles and seven more for a handler, the
dots that the timing gives for them, and one.  A step that fails adds to none.  Over a run the
three therefore never drift apart.
-/

namespace Nes.Console

/-- The answers of `n` steps, and the console after them. -/
def steps (c : Console) : Nat → List (Except UnknownOpcode StepReport) × Console
  | 0 => ([], c)
  | n + 1 => (c.step.1 :: (c.step.2.steps n).1, (c.step.2.steps n).2)

/-- The reports of those of `n` steps that ran an instruction. -/
def reports (c : Console) (n : Nat) : List StepReport := (c.steps n).1.filterMap Except.toOption

/-- How often a handler was entered. -/
def entries (rs : List StepReport) : Nat := rs.countP (·.interrupt.isSome)

/-- The cycles of the instructions that were run. -/
def cyclesRun (rs : List StepReport) : Nat := (rs.map StepReport.cycles).sum

/-! ### One step -/

section

variable {c next : Console} {report : StepReport}

theorem clocks_afterInstruction (c : Console) :
    c.afterInstruction.bus.clocks = c.cpu.bus.clocks :=
  Cpu.clocks_stepNoted rfl

theorem cycles_enter (interrupt : Option Interrupt) (cpu : ConsoleCpu) :
    (enter interrupt cpu).cycles = cpu.cycles + 7 * interrupt.isSome.toNat := by
  cases interrupt with
  | none => rfl
  | some interrupt => cases interrupt <;> exact Cpu.cycles_interrupt _ _

theorem clocks_enter (interrupt : Option Interrupt) {cpu : ConsoleCpu} {k : Clocks}
    (h : cpu.bus.clocks = k) : (enter interrupt cpu).bus.clocks = k := by
  cases interrupt with
  | none => exact h
  | some interrupt => cases interrupt <;> exact Cpu.clocks_interrupt _ h

theorem clocks_takeNmi (m : Mainboard AudioLatch) : m.takeNmi.2.clocks = m.clocks := by
  unfold Mainboard.takeNmi Mainboard.askPpu Ppu.takeNmi
  dsimp only
  split <;> rfl

theorem cycles_step_ok (h : c.step = (.ok report, next)) :
    next.cpu.cycles = c.cpu.cycles + report.cycles + 7 * report.interrupt.isSome.toNat := by
  obtain ⟨hcycles, -, hnext⟩ := step_ok h
  have hrun : c.afterInstruction.cycles = c.cpu.cycles + report.cycles := by
    have hcount := c.cpu.cycles_stepNoted
    rw [hcycles] at hcount
    exact hcount
  rw [hnext, ← hrun]
  exact cycles_enter report.interrupt _

/-- A step moves the clocks by its row of dots and by one step of the audio unit. -/
theorem clocks_step_ok (h : c.step = (.ok report, next)) : next.cpu.bus.clocks =
    { (c.afterInstruction.bus.ticks (c.timing.dots report.cycles)).clocks with
      audioSteps := c.cpu.bus.audio.steps + 1 } := by
  obtain ⟨-, -, hnext⟩ := step_ok h
  have haudio : (c.afterInstruction.bus.ticks (c.timing.dots report.cycles)).audio.steps =
      c.cpu.bus.audio.steps := by
    rw [Mainboard.audio_ticks]
    exact congrArg Clocks.audioSteps c.clocks_afterInstruction
  have hentered : (enter report.interrupt (c.afterInstruction.onBus fun m =>
      (m.ticks (c.timing.dots report.cycles)).takeNmi.2)).bus.clocks =
      (c.afterInstruction.bus.ticks (c.timing.dots report.cycles)).clocks :=
    clocks_enter report.interrupt (clocks_takeNmi _)
  have hstepped : ∀ cpu : ConsoleCpu, (cpu.onBus (·.stepAudio)).bus.clocks =
      { cpu.bus.clocks with audioSteps := cpu.bus.clocks.audioSteps + 1 } := fun _ => rfl
  rw [hnext, hstepped, hentered, ← haudio]
  rfl

theorem elapsed_step_ok (h : c.step = (.ok report, next)) : next.cpu.bus.ppu.beam.elapsed =
    c.cpu.bus.ppu.beam.elapsed + c.timing.dots report.cycles := by
  have hbeam : next.cpu.bus.ppu.beam =
      (c.afterInstruction.bus.ticks (c.timing.dots report.cycles)).ppu.beam :=
    congrArg Clocks.beam (clocks_step_ok h)
  have hstart : c.afterInstruction.bus.ppu.beam = c.cpu.bus.ppu.beam :=
    congrArg Clocks.beam c.clocks_afterInstruction
  rw [hbeam, Mainboard.elapsed_ticks, hstart]

theorem cycles_step_error {e : UnknownOpcode} (h : c.step = (.error e, next)) :
    next.cpu.cycles = c.cpu.cycles := by
  have hcount := c.cpu.cycles_stepNoted
  rw [stepNoted_of_error h] at hcount
  exact hcount

theorem clocks_step_error {e : UnknownOpcode} (h : c.step = (.error e, next)) :
    next.cpu.bus.clocks = c.cpu.bus.clocks := by
  rw [step_error h, clocks_afterInstruction]

end

/-! ### Runs -/

/-- The counts of `last` are those of `c` with the reports added. -/
structure Accounts (c : Console) (rs : List StepReport) (last : Console) : Prop where
  bounds : ∀ r ∈ rs, 2 ≤ r.cycles ∧ r.cycles ≤ 8
  cycles : last.cpu.cycles = c.cpu.cycles + cyclesRun rs + 7 * entries rs
  dots : last.cpu.bus.ppu.beam.elapsed =
    c.cpu.bus.ppu.beam.elapsed + (rs.map fun r => c.timing.dots r.cycles).sum
  audio : last.cpu.bus.audio.steps = c.cpu.bus.audio.steps + rs.length

variable {c next last : Console} {rs : List StepReport}

theorem Accounts.refl (c : Console) : Accounts c [] c where
  bounds _ h := absurd h List.not_mem_nil
  cycles := rfl
  dots := (Nat.add_zero _).symm
  audio := rfl

theorem Accounts.step {r : StepReport} (h : c.step = (.ok r, next))
    (hrest : Accounts next rs last) : Accounts c (r :: rs) last := by
  obtain ⟨hbounds, hcycles, hdots, haudio⟩ := hrest
  have htiming : next.timing = c.timing := timing_of_step h
  have hstarted : next.cpu.bus.audio.steps = c.cpu.bus.audio.steps + 1 :=
    congrArg Clocks.audioSteps (clocks_step_ok h)
  obtain ⟨hran, -, -⟩ := step_ok h
  constructor
  · intro r' hr'
    rcases List.mem_cons.1 hr' with rfl | hmem
    · exact ⟨Cpu.two_le_stepNoted_cycles hran, Cpu.stepNoted_cycles_le hran⟩
    · exact hbounds r' hmem
  · rw [hcycles, cycles_step_ok h]
    have hentry : entries (r :: rs) = entries rs + r.interrupt.isSome.toNat := by
      unfold entries
      rw [List.countP_cons]
      cases r.interrupt.isSome <;> rfl
    have hrun : cyclesRun (r :: rs) = r.cycles + cyclesRun rs := List.sum_cons
    omega
  · rw [hdots, elapsed_step_ok h, htiming, List.map_cons, List.sum_cons, Nat.add_assoc]
  · rw [haudio, hstarted, List.length_cons]
    omega

theorem Accounts.fault {e : UnknownOpcode} (h : c.step = (.error e, next))
    (hrest : Accounts next rs last) : Accounts c rs last := by
  obtain ⟨hbounds, hcycles, hdots, haudio⟩ := hrest
  have htiming : next.timing = c.timing := timing_of_step h
  have hclocks := clocks_step_error h
  have hbeam : next.cpu.bus.ppu.beam = c.cpu.bus.ppu.beam := congrArg Clocks.beam hclocks
  have hsteps : next.cpu.bus.audio.steps = c.cpu.bus.audio.steps :=
    congrArg Clocks.audioSteps hclocks
  constructor
  · exact hbounds
  · rw [hcycles, cycles_step_error h]
  · rw [hdots, hbeam, htiming]
  · rw [haudio, hsteps]

theorem accounts_steps (c : Console) (n : Nat) : Accounts c (c.reports n) (c.steps n).2 := by
  induction n generalizing c with
  | zero => exact .refl c
  | succ n ih =>
    rcases hstep : c.step with ⟨result, next⟩
    have hlast : (c.steps (n + 1)).2 = (next.steps n).2 := by
      show (c.step.2.steps n).2 = _
      rw [hstep]
    have hreports : c.reports (n + 1) = result.toOption.toList ++ next.reports n := by
      show (c.step.1 :: (c.step.2.steps n).1).filterMap Except.toOption = _
      rw [hstep]
      cases result <;> rfl
    rw [hlast, hreports]
    cases result with
    | ok report => exact .step hstep (ih next)
    | error e => exact .fault hstep (ih next)

theorem cycles_powerOn (cartridge : Cartridge) (timing : Timing) (journal : Journal) :
    (powerOn cartridge timing journal).cpu.cycles = 7 := by
  unfold powerOn
  dsimp only
  exact Cpu.cycles_resetNoted _

theorem clocks_powerOn (cartridge : Cartridge) (timing : Timing) (journal : Journal) :
    (powerOn cartridge timing journal).cpu.bus.clocks = ⟨{}, false, 0⟩ := by
  unfold powerOn
  dsimp only
  exact Cpu.clocks_resetNoted rfl

/-- The dots of a run are three for each instruction, or three for each of its cycles. -/
theorem sum_dots (timing : Timing) (rs : List StepReport) :
    (rs.map fun r => timing.dots r.cycles).sum =
      match timing with
      | .instruction => 3 * rs.length
      | .cycle => 3 * cyclesRun rs := by
  induction rs with
  | nil => cases timing <;> rfl
  | cons r rs ih =>
    rw [List.map_cons, List.sum_cons, ih]
    cases timing with
    | instruction =>
      show 3 + 3 * rs.length = 3 * (rs.length + 1)
      omega
    | cycle =>
      have hrun : cyclesRun (r :: rs) = r.cycles + cyclesRun rs := List.sum_cons
      show r.cycles * 3 + 3 * cyclesRun rs = 3 * cyclesRun (r :: rs)
      omega

theorem accounts_of_run (cartridge : Cartridge) (timing : Timing) (journal : Journal) (n : Nat) :
    let c := powerOn cartridge timing journal
    let rs := c.reports n
    let last := (c.steps n).2
    let beam := last.cpu.bus.ppu.beam
    (∀ r ∈ rs, 2 ≤ r.cycles ∧ r.cycles ≤ 8) ∧
      last.cpu.cycles = 7 + cyclesRun rs + 7 * entries rs ∧
      89342 * beam.frames + 341 * beam.scanline + beam.dot =
        (match timing with
        | .instruction => 3 * rs.length
        | .cycle => 3 * cyclesRun rs) ∧
      last.cpu.bus.audio.steps = rs.length := by
  intro c rs last beam
  obtain ⟨hbounds, hcycles, hdots, haudio⟩ := accounts_steps c n
  have hclocks := clocks_powerOn cartridge timing journal
  have hbeam : c.cpu.bus.ppu.beam = {} := congrArg Clocks.beam hclocks
  have hsteps : c.cpu.bus.audio.steps = 0 := congrArg Clocks.audioSteps hclocks
  have hstart : ({} : Beam).elapsed = 0 := by decide
  rw [show c.cpu.cycles = 7 from cycles_powerOn cartridge timing journal] at hcycles
  rw [hbeam, hstart, sum_dots, Nat.zero_add] at hdots
  rw [hsteps, Nat.zero_add] at haudio
  have helapsed : beam.elapsed = 89342 * beam.frames + 341 * beam.scanline + beam.dot := by
    unfold Beam.elapsed Beam.linesPerFrame Beam.dotsPerLine
    omega
  exact ⟨hbounds, hcycles, helapsed.symm.trans hdots, haudio⟩

end Nes.Console
