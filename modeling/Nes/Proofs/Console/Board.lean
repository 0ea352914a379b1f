import Nes.Proofs.Console.Handlers
import Nes.Proofs.Console.Interrupts
import Nes.Proofs.Mainboard.ProgramSide

/-!
# The board of a console

Whatever a console does, its cartridge keeps the board that it has: accesses of the processor,
dots and resets leave the board's number as it is, and so do a step and a frame.
-/

namespace Nes

theorem Mainboard.id_ticks (m : Mainboard AudioLatch) (n : Nat) :
    (m.ticks n).cartridge.board.id = m.cartridge.board.id :=
  id_of_view (m.programView_ticks n)

namespace Console

def board (c : Console) : Board := c.cpu.bus.cartridge.board

theorem id_stepNoted (cpu : ConsoleCpu) :
    cpu.stepNoted.2.bus.cartridge.board.id = cpu.bus.cartridge.board.id := by
  have hall : ∀ a ∈ cpu.stepAccesses, ¬ False := fun _ _ => id
  exact Cpu.stepNoted_keeps
    (P := fun m : Mainboard AudioLatch => m.cartridge.board.id = cpu.bus.cartridge.board.id)
    (fun m addr _ h => (m.id_read addr).trans h) (fun m addr v _ h => (m.id_write addr v).trans h)
    (fun _ _ h => h) hall rfl

theorem id_interrupt (cpu : ConsoleCpu) (vector : UInt16) :
    (cpu.interrupt vector).bus.cartridge.board.id = cpu.bus.cartridge.board.id :=
  Cpu.interrupt_keeps
    (P := fun m : Mainboard AudioLatch => m.cartridge.board.id = cpu.bus.cartridge.board.id)
    (fun m addr h => (m.id_read addr).trans h) (fun m addr v _ h => (m.id_write addr v).trans h)
    vector rfl

theorem id_enter (interrupt : Option Interrupt) (cpu : ConsoleCpu) :
    (enter interrupt cpu).bus.cartridge.board.id = cpu.bus.cartridge.board.id := by
  match interrupt with
  | none => rfl
  | some .nmi => exact id_interrupt cpu _
  | some .irq => exact id_interrupt cpu _

theorem id_step (c : Console) : c.step.2.board.id = c.board.id := by
  rcases h : c.step with ⟨result, next⟩
  cases result with
  | error e =>
    show next.cpu.bus.cartridge.board.id = _
    rw [step_error h]
    exact id_stepNoted c.cpu
  | ok report =>
    show next.cpu.bus.cartridge.board.id = _
    rw [(step_ok h).2.2]
    refine (id_enter _ _).trans ?_
    exact (Mainboard.id_ticks _ _).trans (id_stepNoted c.cpu)

theorem cartridge_reset (c : Console) : c.reset.cpu.bus.cartridge = c.cpu.bus.cartridge := by
  obtain ⟨⟨r, m⟩, timing⟩ := c
  unfold reset
  rw [Cpu.resetNoted_eq]
  rfl

theorem id_apply (c : Console) (act : Act) : (c.apply act).board.id = c.board.id := by
  cases act with
  | step => exact c.id_step
  | poll => rfl
  | reset => exact congrArg (·.board.id) c.cartridge_reset
  | pad socket change => cases socket <;> rfl

theorem id_runFrame (c : Console) : c.runFrame.2.board.id = c.board.id := by
  rw [← c.run_frameActs]
  exact run_keeps (P := fun next => next.board.id = c.board.id)
    (fun next act h => (next.id_apply act).trans h) c.frameActs rfl

end Console

end Nes
