import Nes.Mainboard
import Nes.Config

/-!
# The console

A step runs one instruction and then the dots that it is worth, delivers at most one interrupt,
and steps the audio unit.  The picture unit's interrupt is taken from its latch, so that it comes
once; the cartridge's is a level, tried again at every step while it is asserted.

`powerOn`, `reset`, `step` and `runFrame` are `new`, `reset`, `step` and `run_frame` of famicore's
`Console`; `deliver` is the choice of an interrupt in its `step`.
-/

namespace Nes

/-- The interrupts that a step can end with. -/
inductive Interrupt
  | nmi
  | irq
deriving DecidableEq, Repr

/-- What a step did: the cycles of its instruction and the interrupt that was entered. -/
structure StepReport where
  cycles : Nat
  interrupt : Option Interrupt
deriving DecidableEq, Repr

/-- The processor of a console, with everything that it drives. -/
abbrev ConsoleCpu := Cpu (Mainboard AudioLatch)

structure Console where
  cpu : ConsoleCpu
  timing : Timing

namespace Console

/-- The console with a cartridge put in and reset. -/
def powerOn (cartridge : Cartridge) (timing : Timing) (journal : Journal) : Console where
  cpu := (Cpu.powerOn (Mainboard.powerOn cartridge {} journal)).resetNoted
  timing := timing

def reset (c : Console) : Console := { c with cpu := c.cpu.resetNoted }

/-- The interrupt that is due, if one is, entered. -/
@[inline] def deliver (cpu : ConsoleCpu) : Option Interrupt × ConsoleCpu :=
  match cpu.askBus Mainboard.takeNmi with
  | (true, cpu) => (some .nmi, cpu.nmi)
  | (false, cpu) =>
    if cpu.bus.irqPending then
      match cpu.irq with
      | (true, cpu) => (some .irq, cpu)
      | (false, cpu) => (none, cpu)
    else (none, cpu)

/-- One instruction and what goes with it. -/
def step (c : Console) : Except UnknownOpcode StepReport × Console :=
  match c with
  | ⟨cpu, timing⟩ =>
    match cpu.stepNoted with
    | (.error e, cpu) => (.error e, ⟨cpu, timing⟩)
    | (.ok cycles, cpu) =>
      match deliver (cpu.onBus (·.ticks (timing.dots cycles))) with
      | (interrupt, cpu) => (.ok ⟨cycles, interrupt⟩, ⟨cpu.onBus (·.stepAudio), timing⟩)

@[inline] def askBus {γ : Type} (c : Console)
    (f : Mainboard AudioLatch → γ × Mainboard AudioLatch) : γ × Console :=
  match c with
  | ⟨cpu, timing⟩ =>
    match cpu.askBus f with
    | (answer, cpu) => (answer, ⟨cpu, timing⟩)

@[inline] def takeFrameReady (c : Console) : Bool × Console := c.askBus (·.takeFrameReady)

/-- Steps until a frame is finished, at most `limit` of them; tells whether one was. -/
def stepsToFrame (c : Console) : Nat → Except UnknownOpcode Bool × Console
  | 0 => (.ok false, c)
  | limit + 1 =>
    match c.step with
    | (.error e, c) => (.error e, c)
    | (.ok _, c) =>
      match c.takeFrameReady with
      | (true, c) => (.ok true, c)
      | (false, c) => stepsToFrame c limit

/-- Steps until a frame is finished.  A step is worth a dot at least, so the dots of a frame bound
their number. -/
def runFrame (c : Console) : Except UnknownOpcode Unit × Console :=
  match c.stepsToFrame (Beam.dotsPerLine * Beam.linesPerFrame) with
  | (result, c) => (result.map fun _ => (), c)

def frameCount (c : Console) : Nat := c.cpu.bus.ppu.beam.frames

def frame (c : Console) : Frame := c.cpu.bus.ppu.frame

def takeNotices (c : Console) : Array Notice × Console := c.askBus (·.takeNotices)

end Console

end Nes
