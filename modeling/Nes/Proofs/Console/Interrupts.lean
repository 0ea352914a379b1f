import Nes.Proofs.Console.Handlers
import Nes.Proofs.Console.Run
import Nes.Proofs.Cpu.Accesses
import Nes.Proofs.Cpu.Cycles
import Nes.Proofs.Mainboard.Dots

/-!
# Interrupts

A step is worth at most 24 dots, so it cannot both begin the vertical blank and end it.  It is
therefore enough that every step starts with the picture unit's latch clear, which every step also
leaves clear: an interrupt of the picture unit is entered in the step whose dots began the
vertical blank or not at all.  The cartridge's line stays up until the program takes it down, and
is entered at the first chance.  An entry leaves the frame of its handler on the stack, interrupts
off and the program counter where the vector leads; a step without one leaves all of these alone.
-/

namespace Nes.Console

/-! ### The parts of a step -/

/-- The processor when the instruction of the next step is done and no dot has been drawn. -/
def afterInstruction (c : Console) : ConsoleCpu := c.cpu.stepNoted.2

/-- The processor on its way into the handler of an interrupt, if there is one. -/
def enter : Option Interrupt → ConsoleCpu → ConsoleCpu
  | none, cpu => cpu
  | some .nmi, cpu => cpu.interrupt Cpu.nmiVector
  | some .irq, cpu => cpu.interrupt Cpu.irqVector

/-- The interrupt that the latch, the line and the mask make due. -/
def due (cpu : ConsoleCpu) : Option Interrupt :=
  if cpu.bus.ppu.nmi then some .nmi
  else if cpu.bus.irqPending && !cpu.flags.interruptDisable then some .irq
  else none

theorem due_eq_nmi_iff (cpu : ConsoleCpu) : due cpu = some .nmi ↔ cpu.bus.ppu.nmi = true := by
  unfold due
  cases cpu.bus.ppu.nmi with
  | true => simp
  | false => cases cpu.bus.irqPending <;> cases cpu.flags.interruptDisable <;> simp

theorem due_eq_irq_iff (cpu : ConsoleCpu) : due cpu = some .irq ↔
    ¬ cpu.bus.ppu.nmi = true ∧ cpu.bus.irqPending = true ∧ cpu.flags.interruptDisable = false := by
  unfold due
  cases cpu.bus.ppu.nmi with
  | true => simp
  | false => cases cpu.bus.irqPending <;> cases cpu.flags.interruptDisable <;> simp

theorem askBus_takeNmi (cpu : ConsoleCpu) :
    cpu.askBus Mainboard.takeNmi = (cpu.bus.ppu.nmi, cpu.onBus (·.takeNmi.2)) := by
  obtain ⟨r, m⟩ := cpu
  have hanswer : m.takeNmi.1 = m.ppu.nmi := by
    show m.ppu.takeNmi.1 = m.ppu.nmi
    unfold Ppu.takeNmi
    cases m.ppu.nmi <;> rfl
  unfold Cpu.askBus Cpu.onBus
  dsimp only
  rw [hanswer]

theorem deliver_eq (cpu : ConsoleCpu) :
    deliver cpu = (due cpu, enter (due cpu) (cpu.onBus (·.takeNmi.2))) := by
  have hline : (cpu.onBus (·.takeNmi.2)).bus.irqPending = cpu.bus.irqPending := rfl
  have hflags : (cpu.onBus (·.takeNmi.2)).flags = cpu.flags := rfl
  unfold deliver due
  rw [askBus_takeNmi]
  cases cpu.bus.ppu.nmi with
  | true => rfl
  | false =>
    dsimp only
    rw [hline]
    unfold Cpu.irq
    rw [hflags]
    cases cpu.bus.irqPending with
    | false => rfl
    | true => cases cpu.flags.interruptDisable <;> rfl

/-- What a step that runs an instruction is made of. -/
theorem step_ok {c next : Console} {report : StepReport} (h : c.step = (.ok report, next)) :
    c.cpu.stepNoted.1 = .ok report.cycles ∧
      report.interrupt = due (c.afterInstruction.onBus (·.ticks (c.timing.dots report.cycles))) ∧
      next.cpu = (enter report.interrupt (c.afterInstruction.onBus fun m =>
        (m.ticks (c.timing.dots report.cycles)).takeNmi.2)).onBus (·.stepAudio) := by
  obtain ⟨cpu, timing⟩ := c
  unfold step at h
  unfold afterInstruction
  dsimp only at h ⊢
  rcases hstepped : cpu.stepNoted with ⟨result, cpu'⟩
  rw [hstepped] at h
  cases result with
  | error e => cases h
  | ok cycles =>
    dsimp only at h
    rw [deliver_eq] at h
    cases h
    exact ⟨rfl, rfl, rfl⟩

theorem step_error {c next : Console} {e : UnknownOpcode} (h : c.step = (.error e, next)) :
    next.cpu = c.afterInstruction := by
  obtain ⟨cpu, timing⟩ := c
  unfold step at h
  unfold afterInstruction
  dsimp only at h ⊢
  rcases hstepped : cpu.stepNoted with ⟨result, cpu'⟩
  rw [hstepped] at h
  cases result with
  | error e => cases h; rfl
  | ok cycles => cases h

theorem stepNoted_of_error {c next : Console} {e : UnknownOpcode} (h : c.step = (.error e, next)) :
    c.cpu.stepNoted = (.error e, next.cpu) := by
  obtain ⟨cpu, timing⟩ := c
  unfold step at h
  dsimp only at h ⊢
  rcases hstepped : cpu.stepNoted with ⟨result, cpu'⟩
  rw [hstepped] at h
  cases result with
  | error e' =>
    cases h
    rfl
  | ok cycles => cases h

theorem timing_of_step {c next : Console} {result : Except UnknownOpcode StepReport}
    (h : c.step = (result, next)) : next.timing = c.timing := by
  obtain ⟨cpu, timing⟩ := c
  unfold step at h
  dsimp only at h ⊢
  rcases hstepped : cpu.stepNoted with ⟨stepped, cpu'⟩
  rw [hstepped] at h
  cases stepped with
  | error e => cases h; rfl
  | ok cycles => cases h; rfl

/-! ### The latch between steps -/

theorem latch_interrupt {cpu : ConsoleCpu} (vector : UInt16) (h : cpu.bus.ppu.nmi = false) :
    (cpu.interrupt vector).bus.ppu.nmi = false :=
  Cpu.interrupt_keeps (P := fun m : Mainboard AudioLatch => m.ppu.nmi = false)
    (fun m addr h => (m.nmi_read addr).trans h) (fun m addr v _ h => (m.nmi_write addr v).trans h)
    vector h

theorem latch_takeNmi (m : Mainboard AudioLatch) : m.takeNmi.2.ppu.nmi = false := by
  show m.ppu.takeNmi.2.nmi = false
  unfold Ppu.takeNmi
  cases hnmi : m.ppu.nmi with
  | true => rfl
  | false => exact hnmi

theorem latch_enter (interrupt : Option Interrupt) {cpu : ConsoleCpu}
    (h : cpu.bus.ppu.nmi = false) : (enter interrupt cpu).bus.ppu.nmi = false := by
  cases interrupt with
  | none => exact h
  | some interrupt => cases interrupt <;> exact latch_interrupt _ h

theorem latch_afterInstruction {c : Console} (h : c.cpu.bus.ppu.nmi = false) :
    c.afterInstruction.bus.ppu.nmi = false := by
  have hall : ∀ a ∈ c.cpu.stepAccesses, ¬ False := fun _ _ => id
  exact Cpu.stepNoted_keeps (P := fun m : Mainboard AudioLatch => m.ppu.nmi = false)
    (fun m addr _ h => (m.nmi_read addr).trans h) (fun m addr v _ h => (m.nmi_write addr v).trans h)
    (fun _ _ h => h) hall h

theorem latch_step {c : Console} (h : c.cpu.bus.ppu.nmi = false) :
    c.step.2.cpu.bus.ppu.nmi = false := by
  rcases hstep : c.step with ⟨result, next⟩
  cases result with
  | error e =>
    rw [step_error hstep]
    exact latch_afterInstruction h
  | ok report =>
    obtain ⟨_, _, hnext⟩ := step_ok hstep
    rw [hnext]
    exact latch_enter report.interrupt (latch_takeNmi _)

theorem latch_reset {cpu : ConsoleCpu} (h : cpu.bus.ppu.nmi = false) :
    cpu.resetNoted.bus.ppu.nmi = false :=
  Cpu.resetNoted_keeps (P := fun m : Mainboard AudioLatch => m.ppu.nmi = false)
    (fun m addr h => (m.nmi_read addr).trans h) (fun _ _ h => h) h

theorem latch_apply (c : Console) (act : Act) (h : c.cpu.bus.ppu.nmi = false) :
    (c.apply act).cpu.bus.ppu.nmi = false := by
  cases act with
  | step => exact latch_step h
  | poll =>
    show (c.cpu.bus.ppu.takeFrameReady).2.nmi = false
    unfold Ppu.takeFrameReady
    split <;> exact h
  | reset => exact latch_reset h
  | pad socket change => cases socket <;> exact h

theorem latch_powerOn (cartridge : Cartridge) (timing : Timing) (journal : Journal) :
    (powerOn cartridge timing journal).cpu.bus.ppu.nmi = false := by
  unfold powerOn
  dsimp only
  refine latch_reset ?_
  rfl

theorem latch_run (cartridge : Cartridge) (timing : Timing) (journal : Journal)
    (acts : List Act) : ((powerOn cartridge timing journal).run acts).cpu.bus.ppu.nmi = false :=
  run_keeps latch_apply acts (latch_powerOn cartridge timing journal)

/-! ### The line until it is acknowledged -/

/-- The instruction of the next step turns an MMC3's interrupts off. -/
def Acknowledges (c : Console) : Prop := ∃ a ∈ c.cpu.stepAccesses, a.Acknowledges

/-- No step of a run does. -/
def Unacknowledged (c : Console) : List Act → Prop
  | [] => True
  | act :: acts => (act = .step → ¬ c.Acknowledges) ∧ (c.apply act).Unacknowledged acts

theorem line_interrupt {cpu : ConsoleCpu} (vector : UInt16) (h : cpu.bus.irqPending = true) :
    (cpu.interrupt vector).bus.irqPending = true := by
  refine Cpu.interrupt_keeps (P := fun m : Mainboard AudioLatch => m.irqPending = true)
    (fun m addr h => (m.irqPending_read addr).trans h) (fun m addr v hlow h => ?_) vector h
  have hstack : ¬ (Access.write addr v).Acknowledges := by
    rintro ⟨hhigh, _⟩
    exact absurd (UInt16.lt_of_le_of_lt hhigh hlow) (by decide)
  exact (m.irqPending_write hstack).trans h

theorem line_enter (interrupt : Option Interrupt) {cpu : ConsoleCpu}
    (h : cpu.bus.irqPending = true) : (enter interrupt cpu).bus.irqPending = true := by
  cases interrupt with
  | none => exact h
  | some interrupt => cases interrupt <;> exact line_interrupt _ h

theorem line_afterInstruction {c : Console} (hquiet : ¬ c.Acknowledges)
    (h : c.cpu.bus.irqPending = true) : c.afterInstruction.bus.irqPending = true :=
  Cpu.stepNoted_keeps (P := fun m : Mainboard AudioLatch => m.irqPending = true)
    (fun m addr _ h => (m.irqPending_read addr).trans h)
    (fun m _ _ hgood h => (m.irqPending_write hgood).trans h)
    (fun _ _ h => h) (fun a ha hack => hquiet ⟨a, ha, hack⟩) h

/-- The cartridge's line is up after the next step's dots. -/
def AssertsIrq (c : Console) (dots : Nat) : Prop :=
  (c.afterInstruction.bus.ticks dots).irqPending = true

theorem line_asserted {c next : Console} {report : StepReport} (h : c.step = (.ok report, next))
    (hline : c.AssertsIrq (c.timing.dots report.cycles)) : next.cpu.bus.irqPending = true := by
  obtain ⟨_, _, hnext⟩ := step_ok h
  rw [hnext]
  exact line_enter report.interrupt hline

theorem line_step {c : Console} (hquiet : ¬ c.Acknowledges) (h : c.cpu.bus.irqPending = true) :
    c.step.2.cpu.bus.irqPending = true := by
  have hinstruction := line_afterInstruction hquiet h
  rcases hstep : c.step with ⟨result, next⟩
  cases result with
  | error e =>
    rw [step_error hstep]
    exact hinstruction
  | ok report => exact line_asserted hstep (Mainboard.irqPending_ticks _ _ hinstruction)

theorem line_run {c : Console} {acts : List Act} (hquiet : c.Unacknowledged acts)
    (h : c.cpu.bus.irqPending = true) : (c.run acts).cpu.bus.irqPending = true := by
  induction acts generalizing c with
  | nil => exact h
  | cons act acts ih =>
    refine ih hquiet.2 ?_
    cases act with
    | step => exact line_step (hquiet.1 rfl) h
    | poll => exact h
    | reset =>
      exact Cpu.resetNoted_keeps (P := fun m : Mainboard AudioLatch => m.irqPending = true)
        (fun m addr h => (m.irqPending_read addr).trans h) (fun _ _ h => h) h
    | pad socket change => cases socket <;> exact h

/-! ### Delivery -/

/-- One of the next step's dots begins the vertical blank while the control byte, as the
instruction left it, enables the interrupt. -/
def RaisesNmi (c : Console) (dots : Nat) : Prop :=
  c.afterInstruction.bus.ppu.nmiEnabled = true ∧
    ∃ k < dots, c.afterInstruction.bus.BeginsVblank k

/-- The processor when the next step's dots are drawn and nothing is delivered yet. -/
def afterDots (c : Console) (dots : Nat) : ConsoleCpu := c.afterInstruction.onBus (·.ticks dots)

/-- What a step makes of the two interrupts. -/
structure Delivers (c : Console) (report : StepReport) (next : Console) : Prop where
  nmi : report.interrupt = some .nmi ↔ c.RaisesNmi (c.timing.dots report.cycles)
  irq : report.interrupt = some .irq ↔ ¬ c.RaisesNmi (c.timing.dots report.cycles) ∧
    c.AssertsIrq (c.timing.dots report.cycles) ∧ c.afterInstruction.flags.interruptDisable = false
  once : ∀ j < c.timing.dots report.cycles, ∀ k < c.timing.dots report.cycles,
    c.afterInstruction.bus.BeginsVblank j → c.afterInstruction.bus.BeginsVblank k → j = k
  entered : next.cpu = (enter report.interrupt (c.afterInstruction.onBus fun m =>
    (m.ticks (c.timing.dots report.cycles)).takeNmi.2)).onBus (·.stepAudio)
  nmiHandler : report.interrupt = some .nmi →
    Cpu.HandlerEntry 0xFFFA (c.afterDots (c.timing.dots report.cycles)) next.cpu
  irqHandler : report.interrupt = some .irq →
    Cpu.HandlerEntry 0xFFFE (c.afterDots (c.timing.dots report.cycles)) next.cpu
  noHandler : report.interrupt = none →
    next.cpu.toRegisters = (c.afterDots (c.timing.dots report.cycles)).toRegisters ∧
      next.cpu.bus.ram = (c.afterDots (c.timing.dots report.cycles)).bus.ram

/-- Neither the latch nor the audio unit is among what an entry is told by. -/
theorem handlerEntry_interrupt (cpu : ConsoleCpu) {vector : UInt16} (hlo : 0x6000 ≤ vector)
    (hhi : 0x6000 ≤ vector + 1) : Cpu.HandlerEntry vector cpu
      (((cpu.onBus (·.takeNmi.2)).interrupt vector).onBus (·.stepAudio)) := by
  have hentry := Cpu.interrupt_entry (cpu.onBus (·.takeNmi.2)) hlo hhi
  exact ⟨hentry.registers, hentry.stack⟩

theorem dots_le {c : Console} {cycles : Nat} (h : c.cpu.stepNoted.1 = .ok cycles) :
    c.timing.dots cycles ≤ 24 := by
  have hcycles := Cpu.stepNoted_cycles_le h
  cases c.timing with
  | instruction => exact (by decide : 3 ≤ 24)
  | cycle => exact Nat.mul_le_mul_right 3 hcycles

theorem step_delivers {c next : Console} {report : StepReport}
    (hlatch : c.cpu.bus.ppu.nmi = false) (h : c.step = (.ok report, next)) :
    Delivers c report next := by
  obtain ⟨hcycles, hinterrupt, hnext⟩ := step_ok h
  have hdots := dots_le hcycles
  have hraised : (c.afterInstruction.bus.ticks (c.timing.dots report.cycles)).ppu.nmi = true ↔
      c.RaisesNmi (c.timing.dots report.cycles) :=
    Mainboard.nmi_ticks _ (Nat.le_trans hdots (by decide)) (latch_afterInstruction hlatch)
  refine ⟨?nmi, ?irq, ?once, hnext, ?nmiHandler, ?irqHandler, ?noHandler⟩
  case nmi =>
    rw [hinterrupt, due_eq_nmi_iff]
    exact hraised
  case irq =>
    rw [hinterrupt, due_eq_irq_iff, ← hraised]
    exact Iff.rfl
  case once =>
    intro j hj k hk hbegins hbegins'
    exact Mainboard.beginsVblank_unique _ hbegins hbegins' (by omega)
  case nmiHandler =>
    intro hnmi
    rw [hnext, hnmi]
    exact handlerEntry_interrupt _ (by decide) (by decide)
  case irqHandler =>
    intro hirq
    rw [hnext, hirq]
    exact handlerEntry_interrupt _ (by decide) (by decide)
  case noHandler =>
    intro hnone
    rw [hnext, hnone]
    exact ⟨rfl, rfl⟩

/-- Once up, the line is entered by the first step that can, unless it was acknowledged. -/
theorem line_delivered {c next : Console} {report : StepReport}
    (hlatch : c.cpu.bus.ppu.nmi = false) (h : c.step = (.ok report, next))
    (hline : c.cpu.bus.irqPending = true) (hquiet : ¬ c.Acknowledges)
    (hopen : c.afterInstruction.flags.interruptDisable = false)
    (hnmi : ¬ c.RaisesNmi (c.timing.dots report.cycles)) : report.interrupt = some .irq :=
  (step_delivers hlatch h).irq.2
    ⟨hnmi, Mainboard.irqPending_ticks _ _ (line_afterInstruction hquiet hline), hopen⟩

/-- In a run from power on, a step delivers what its dots raised, and a line that is left up is
entered by the first later step that can. -/
theorem interrupts_of_run (cartridge : Cartridge) (timing : Timing) (journal : Journal)
    (acts : List Act) :
    let c := (powerOn cartridge timing journal).run acts
    c.run c.frameActs = c.runFrame.2 ∧ c.cpu.bus.ppu.nmi = false ∧
      ∀ report next, c.step = (.ok report, next) →
        Delivers c report next ∧
          (c.AssertsIrq (c.timing.dots report.cycles) →
            ∀ later, next.Unacknowledged later →
              (next.run later).cpu.bus.irqPending = true ∧
              ∀ report' next', (next.run later).step = (.ok report', next') →
                ¬ (next.run later).Acknowledges →
                (next.run later).afterInstruction.flags.interruptDisable = false →
                ¬ (next.run later).RaisesNmi ((next.run later).timing.dots report'.cycles) →
                report'.interrupt = some .irq) := by
  intro c
  have hlatch : c.cpu.bus.ppu.nmi = false := latch_run cartridge timing journal acts
  refine ⟨c.run_frameActs, hlatch, fun report next h => ?_⟩
  refine ⟨step_delivers hlatch h, fun hline later hquiet => ?_⟩
  have hnext : next.cpu.bus.ppu.nmi = false := by
    have hstep := latch_step hlatch
    rw [h] at hstep
    exact hstep
  have hlater := line_run hquiet (line_asserted h hline)
  refine ⟨hlater, fun report' next' h' hquiet' hopen hnmi => ?_⟩
  exact line_delivered (run_keeps latch_apply later hnext) h' hlater hquiet' hopen hnmi

/-! ### A line that is masked once -/

/-- A cartridge whose line is up from the start and whose program is `NOP` and then `CLI`. -/
def maskedOnce : Cartridge where
  header := ⟨0, 0, 4, .horizontal, false, false⟩
  trainer := none
  board := .mmc3 { Mmc3.powerOn (Array.replicate 0x2000 0x60) ⟨#[], true⟩ .horizontal with
    ram := (Memory.filled 0x58).set 0x6060 0xEA
    irq := { pending := true } }

def maskedConsole : Console := powerOn maskedOnce .cycle ⟨none, #[]⟩

theorem maskedConsole_steps :
    (maskedConsole.step.1.toOption = some ⟨2, none⟩ ∧
        (maskedConsole.afterInstruction.bus.ticks (maskedConsole.timing.dots 2)).irqPending) ∧
      maskedConsole.step.2.step.1.toOption = some ⟨2, some .irq⟩ ∧
      (∀ a ∈ maskedConsole.step.2.cpu.stepAccesses, ¬ a.Acknowledges) ∧
      maskedConsole.step.2.afterInstruction.flags.interruptDisable = false ∧
      maskedConsole.step.2.afterInstruction.bus.ppu.nmiEnabled = false := by
  decide +kernel

theorem step_eq_of_toOption {c : Console} {report : StepReport}
    (h : c.step.1.toOption = some report) : c.step = (.ok report, c.step.2) := by
  rcases hstep : c.step with ⟨result, next⟩
  rw [hstep] at h
  cases result with
  | error e => cases h
  | ok report' =>
    cases h
    rfl

/-- The first step leaves the line up and the second enters it. -/
theorem interrupts_of_run_masked :
    maskedConsole.step.1 = .ok ⟨2, none⟩ ∧
      maskedConsole.AssertsIrq (maskedConsole.timing.dots 2) ∧
      ∃ report, maskedConsole.step.2.step.1 = .ok report ∧ report.interrupt = some .irq := by
  obtain ⟨⟨hfirst, hline⟩, hsecond, hquiet, hopen, henabled⟩ := maskedConsole_steps
  have hstep := step_eq_of_toOption hfirst
  have hlater := step_eq_of_toOption hsecond
  have hstart : (powerOn maskedOnce .cycle ⟨none, #[]⟩).run [] = maskedConsole := rfl
  have hrun := interrupts_of_run maskedOnce .cycle ⟨none, #[]⟩ []
  simp only [hstart] at hrun
  obtain ⟨-, hpersists⟩ := hrun.2.2 _ _ hstep
  have hnone : maskedConsole.step.2.Unacknowledged [] := by rw [Unacknowledged]; exact trivial
  have hsame : maskedConsole.step.2.run [] = maskedConsole.step.2 := by rw [run_nil]
  have hlast := hpersists hline [] hnone
  rw [hsame] at hlast
  have hlast := hlast.2 _ _ hlater
    (fun ⟨a, ha, hack⟩ => hquiet a ha hack) hopen
    (fun hraised => by rw [hraised.1] at henabled; cases henabled)
  exact ⟨congrArg Prod.fst hstep, hline, _, congrArg Prod.fst hlater, hlast⟩

end Nes.Console
