import Nes.Proofs.Cartridge.Rom
import Nes.Proofs.Checked.Mainboard
import Nes.Proofs.Checked.Processor

/-!
# The console, checked

A console is switched on with a cartridge and then asked for steps, frames and resets, for
accesses to its bus and for changes of its controllers, in any order.  Every one of these is
checked all the way down, and none meets a fault: a cartridge that loads is sound, a console with
a sound mainboard answers without fault, and its mainboard stays sound.  The counts of cycles,
frames and audio steps, sixty-four bits each, are taken to have room.
-/

namespace Nes

open Checked

/-! ### Processors over a checked mainboard -/

namespace Cpu

def guard (cpu : ConsoleCpu) : Cpu Guarded := ⟨cpu.toRegisters, ⟨.ok cpu.bus⟩⟩

def release (cpu : Cpu Guarded) : Checked ConsoleCpu := do
  let bus ← cpu.bus.state
  return ⟨cpu.toRegisters, bus⟩

theorem related_guard {cpu : ConsoleCpu} (h : cpu.bus.Sound) :
    Related Guarded.Holds cpu.guard cpu :=
  .mk cpu.toRegisters ⟨rfl, h⟩

theorem Related.release_ok {p : Cpu Guarded} {q : ConsoleCpu} (h : Related Guarded.Holds p q) :
    p.release = .ok q := by
  cases h with
  | mk r h =>
    unfold release
    dsimp only
    rw [h.state]
    rfl

theorem Related.interrupt {p : Cpu Guarded} {q : ConsoleCpu} (h : Related Guarded.Holds p q)
    (vector : UInt16) : Related Guarded.Holds (p.interrupt vector) (q.interrupt vector) := by
  unfold Cpu.interrupt
  rw [h.registers]
  exact (h.enter Guarded.simulation q.pc false vector).onRegisters _

theorem Related.irq {p : Cpu Guarded} {q : ConsoleCpu} (h : Related Guarded.Holds p q) :
    Alike (Related Guarded.Holds) p.irq q.irq := by
  unfold Cpu.irq
  rw [h.registers]
  split
  · exact .pair false h
  · exact .pair true (h.interrupt irqVector)

theorem Related.resetNoted {p : Cpu Guarded} {q : ConsoleCpu} (h : Related Guarded.Holds p q) :
    Related Guarded.Holds p.resetNoted q.resetNoted := by
  obtain ⟨hpc, hread⟩ := h.readWord Guarded.simulation resetVector
  have hreset := hread.onRegisters fun _ => { pc := (q.readWord resetVector).1, cycles := 7 }
  have hnoted := hreset.onBus fun h =>
    Guarded.notesAlike.onJournal (·.add (.resetVector (q.readWord resetVector).1)) h
  unfold Cpu.resetNoted Cpu.reset Cpu.resetTo
  dsimp only
  rw [hpc]
  exact hnoted

end Cpu

/-- The dots of an instruction, a product of thirty-two bits. -/
def Timing.dotsChecked (timing : Timing) (cycles : Nat) : Checked Nat :=
  match timing with
  | .instruction => .ok 3
  | .cycle => mulIn 32 cycles 3

theorem Timing.dotsChecked_ok (timing : Timing) {cycles : Nat} (h : cycles ≤ 8) :
    timing.dotsChecked cycles = .ok (timing.dots cycles) := by
  cases timing with
  | instruction => rfl
  | cycle => exact mulIn_ok (by omega)

namespace Console

/-! ### Requests -/

def powerOnChecked (cartridge : Cartridge) (timing : Timing) (journal : Journal) :
    Checked Console := do
  let cpu ← (Cpu.powerOn (Mainboard.powerOn cartridge {} journal)).guard.resetNoted.release
  return ⟨cpu, timing⟩

def resetChecked (c : Console) : Checked Console := do
  let cpu ← c.cpu.guard.resetNoted.release
  return { c with cpu }

def deliverChecked (cpu : ConsoleCpu) : Checked (Option Interrupt × ConsoleCpu) := do
  let (nmi, cpu) := cpu.askBus Mainboard.takeNmi
  if nmi then
    let cpu ← cpu.guard.nmi.release
    return (some .nmi, cpu)
  else if cpu.bus.irqPending then
    let (taken, guarded) := cpu.guard.irq
    let cpu ← guarded.release
    return (if taken then some .irq else none, cpu)
  else return (none, cpu)

def stepChecked (c : Console) : Checked (Except UnknownOpcode StepReport × Console) := do
  let (result, guarded) ← c.cpu.guard.stepChecked
  let cpu ← guarded.release
  match result with
  | .error e => return (.error e, { c with cpu })
  | .ok cycles => do
    let dots ← c.timing.dotsChecked cycles
    let bus ← cpu.bus.ticksChecked dots
    let (interrupt, cpu) ← deliverChecked { cpu with bus }
    return (.ok ⟨cycles, interrupt⟩, { c with cpu := cpu.onBus (·.stepAudio) })

def stepsToFrameChecked (c : Console) : Nat → Checked (Except UnknownOpcode Bool × Console)
  | 0 => .ok (.ok false, c)
  | limit + 1 => do
    let (result, c) ← c.stepChecked
    match result with
    | .error e => return (.error e, c)
    | .ok _ => do
      let (ready, c) := c.takeFrameReady
      if ready then return (.ok true, c) else c.stepsToFrameChecked limit

def runFrameChecked (c : Console) : Checked (Except UnknownOpcode Unit × Console) := do
  let (result, c) ← c.stepsToFrameChecked (Beam.dotsPerLine * Beam.linesPerFrame)
  return (result.map fun _ => (), c)

/-- What can be asked of a console from outside.  A port is the number of a socket. -/
inductive Request
  | powerOn (timing : Timing) (journal : Journal)
  | step
  | frame
  | reset
  | buttons (port : Fin 2) (pressed : UInt8)
  | button (port : Fin 2) (button : Button) (pressed : Bool)
  | read (addr : UInt16)
  | write (addr : UInt16) (v : UInt8)

def onPad (c : Console) (port : Fin 2) (f : Controller → Controller) : Console :=
  let socket := if port = 0 then Socket.first else Socket.second
  { c with cpu := c.cpu.onBus fun m => m.setPad socket (f (m.pad socket)) }

/-- A request answered by the console, which may be switched on again with its cartridge. -/
def handle (cartridge : Cartridge) (c : Console) : Request → Console
  | .powerOn timing journal => powerOn cartridge timing journal
  | .step => c.step.2
  | .frame => c.runFrame.2
  | .reset => c.reset
  | .buttons port pressed => c.onPad port (·.setButtons pressed)
  | .button port button pressed => c.onPad port (·.setButton button pressed)
  | .read addr => { c with cpu := c.cpu.onBus fun m => (Bus.read m addr).2 }
  | .write addr v => { c with cpu := c.cpu.onBus (Bus.write · addr v) }

def onPadChecked (c : Console) (port : Nat) (f : Controller → Checked Controller) :
    Checked Console := do
  let socket ← Socket.ofPort port
  let pad ← f (c.cpu.bus.pad socket)
  return { c with cpu := c.cpu.onBus (·.setPad socket pad) }

def handleChecked (cartridge : Cartridge) (c : Console) : Request → Checked Console
  | .powerOn timing journal => powerOnChecked cartridge timing journal
  | .step => Prod.snd <$> c.stepChecked
  | .frame => Prod.snd <$> c.runFrameChecked
  | .reset => c.resetChecked
  | .buttons port pressed => c.onPadChecked port fun pad => .ok (pad.setButtons pressed)
  | .button port button pressed => c.onPadChecked port (·.setButtonChecked button pressed)
  | .read addr => do
    let (_, bus) ← c.cpu.bus.readChecked addr
    return { c with cpu := c.cpu.onBus fun _ => bus }
  | .write addr v => do
    let bus ← c.cpu.bus.writeChecked addr v
    return { c with cpu := c.cpu.onBus fun _ => bus }

/-- A console switched on, after the requests. -/
def serve (cartridge : Cartridge) (timing : Timing) (journal : Journal)
    (requests : List Request) : Console :=
  requests.foldl (handle cartridge) (powerOn cartridge timing journal)

def serveChecked (cartridge : Cartridge) (timing : Timing) (journal : Journal)
    (requests : List Request) : Checked Console := do
  let c ← powerOnChecked cartridge timing journal
  requests.foldlM (handleChecked cartridge) c

/-! ### Nothing goes wrong -/

def Sound (c : Console) : Prop := c.cpu.bus.Sound

variable {c : Console}

theorem deliverChecked_ok {cpu : ConsoleCpu} (h : cpu.bus.Sound) :
    deliverChecked cpu = .ok (deliver cpu) ∧ (deliver cpu).2.bus.Sound := by
  have htaken : (cpu.askBus Mainboard.takeNmi).2.bus.Sound := h.takeNmi
  unfold deliverChecked deliver
  rcases hask : cpu.askBus Mainboard.takeNmi with ⟨nmi, next⟩
  rw [hask] at htaken
  have hguard : Cpu.Related Guarded.Holds next.guard next := Cpu.related_guard htaken
  cases nmi with
  | true =>
    have hnmi : Cpu.Related Guarded.Holds next.guard.nmi next.nmi := hguard.interrupt _
    dsimp only
    rw [if_pos rfl, hnmi.release_ok]
    exact ⟨rfl, hnmi.bus.sound⟩
  | false =>
    dsimp only
    rw [if_neg Bool.false_ne_true]
    split
    · obtain ⟨taken, guarded, entered, hp, hq, hirq⟩ := hguard.irq.parts
      rw [hp, hq]
      dsimp only
      rw [hirq.release_ok]
      cases taken <;> exact ⟨rfl, hirq.bus.sound⟩
    · exact ⟨rfl, htaken⟩

theorem stepChecked_ok (h : c.Sound) : c.stepChecked = .ok c.step ∧ c.step.2.Sound := by
  obtain ⟨cpu, timing⟩ := c
  have hguard : Cpu.Related Guarded.Holds cpu.guard cpu := Cpu.related_guard h
  obtain ⟨result, guarded, next, hp, hq, hstep⟩ :=
    (hguard.stepNoted Guarded.simulation Guarded.notesAlike).parts
  unfold stepChecked step
  dsimp only
  rw [Cpu.stepChecked_ok, hp, ok_bind, hq]
  dsimp only
  rw [hstep.release_ok, ok_bind]
  cases result with
  | error e => exact ⟨rfl, hstep.bus.sound⟩
  | ok cycles =>
    have hcycles : cycles ≤ 8 := Cpu.stepNoted_cycles_le (congrArg Prod.fst hq)
    have hticked : (next.onBus (·.ticks (timing.dots cycles))).bus.Sound :=
      hstep.bus.sound.ticks _
    obtain ⟨hdeliver, hdelivered⟩ := deliverChecked_ok hticked
    dsimp only
    rw [timing.dotsChecked_ok hcycles, ok_bind, Mainboard.ticksChecked_ok hstep.bus.sound, ok_bind]
    refine ⟨?_, hdelivered.stepAudio⟩
    show deliverChecked (next.onBus (·.ticks (timing.dots cycles))) >>= _ = _
    rw [hdeliver]
    rfl

theorem stepsToFrameChecked_ok (h : c.Sound) (limit : Nat) :
    c.stepsToFrameChecked limit = .ok (c.stepsToFrame limit) ∧
      (c.stepsToFrame limit).2.Sound := by
  induction limit generalizing c with
  | zero => exact ⟨rfl, h⟩
  | succ limit ih =>
    obtain ⟨hstep, hstepped⟩ := stepChecked_ok h
    unfold stepsToFrameChecked stepsToFrame
    rw [hstep, ok_bind]
    rcases hresult : c.step with ⟨result, next⟩
    rw [hresult] at hstepped
    cases result with
    | error e => exact ⟨rfl, hstepped⟩
    | ok report =>
      have hpolled : next.takeFrameReady.2.Sound := Mainboard.Sound.takeFrameReady hstepped
      dsimp only
      rcases hpoll : next.takeFrameReady with ⟨ready, polled⟩
      rw [hpoll] at hpolled
      cases ready with
      | true => exact ⟨rfl, hpolled⟩
      | false => exact ih hpolled

theorem runFrameChecked_ok (h : c.Sound) :
    c.runFrameChecked = .ok c.runFrame ∧ c.runFrame.2.Sound := by
  obtain ⟨hrun, hsound⟩ := stepsToFrameChecked_ok h (Beam.dotsPerLine * Beam.linesPerFrame)
  refine ⟨?_, hsound⟩
  unfold runFrameChecked
  rw [hrun]
  rfl

theorem resetChecked_ok (h : c.Sound) : c.resetChecked = .ok c.reset ∧ c.reset.Sound := by
  have hreset := (Cpu.related_guard h).resetNoted
  refine ⟨?_, hreset.bus.sound⟩
  unfold resetChecked
  rw [hreset.release_ok]
  rfl

theorem onPadChecked_ok (h : c.Sound) (port : Fin 2) (f : Controller → Controller)
    {g : Controller → Checked Controller} (hg : ∀ pad, g pad = .ok (f pad)) :
    c.onPadChecked port g = .ok (c.onPad port f) ∧ (c.onPad port f).Sound := by
  have hport : Socket.ofPort port = .ok (if port = 0 then Socket.first else Socket.second) := by
    revert port
    decide
  refine ⟨?_, h.setPad _ _⟩
  unfold onPadChecked
  rw [hport, ok_bind, hg]
  rfl

section Cartridges

variable {cartridge : Cartridge}

theorem powerOnChecked_ok (h : cartridge.board.Sound) (timing : Timing) (journal : Journal) :
    powerOnChecked cartridge timing journal = .ok (powerOn cartridge timing journal) ∧
      (powerOn cartridge timing journal).Sound := by
  have hsound : (Cpu.powerOn (Mainboard.powerOn cartridge ({} : AudioLatch) journal)).bus.Sound :=
    ⟨Ppu.sound_powerOn, h⟩
  have hreset := (Cpu.related_guard hsound).resetNoted
  refine ⟨?_, hreset.bus.sound⟩
  unfold powerOnChecked
  rw [hreset.release_ok]
  rfl

theorem handleChecked_ok (hboard : cartridge.board.Sound) (h : c.Sound) (request : Request) :
    c.handleChecked cartridge request = .ok (c.handle cartridge request) ∧
      (c.handle cartridge request).Sound := by
  cases request with
  | powerOn timing journal => exact powerOnChecked_ok hboard timing journal
  | step =>
    obtain ⟨hstep, hsound⟩ := stepChecked_ok h
    exact ⟨congrArg (Prod.snd <$> ·) hstep, hsound⟩
  | frame =>
    obtain ⟨hrun, hsound⟩ := runFrameChecked_ok h
    exact ⟨congrArg (Prod.snd <$> ·) hrun, hsound⟩
  | reset => exact resetChecked_ok h
  | buttons port pressed => exact onPadChecked_ok h port (·.setButtons pressed) fun _ => rfl
  | button port button pressed =>
    exact onPadChecked_ok h port _ fun pad => pad.setButtonChecked_ok button pressed
  | read addr =>
    refine ⟨?_, Mainboard.Sound.read h addr⟩
    unfold handleChecked
    dsimp only
    rw [Mainboard.readChecked_ok]
    rfl
  | write addr v =>
    refine ⟨?_, Mainboard.Sound.write h addr v⟩
    unfold handleChecked
    dsimp only
    rw [Mainboard.writeChecked_ok h]
    rfl

theorem foldlM_handleChecked (hboard : cartridge.board.Sound) (requests : List Request)
    (h : c.Sound) : requests.foldlM (handleChecked cartridge) c =
      .ok (requests.foldl (handle cartridge) c) := by
  induction requests generalizing c with
  | nil => rfl
  | cons request requests ih =>
    obtain ⟨hhandled, hsound⟩ := handleChecked_ok hboard h request
    rw [List.foldlM_cons, hhandled, ok_bind, ih hsound]
    rfl

end Cartridges

end Console

/-! ### Cartridges that load -/

namespace Cartridge

theorem sound_ofBytes {data : Array UInt8} {cartridge : Cartridge}
    (h : ofBytes data = .ok cartridge) : cartridge.board.Sound := by
  obtain ⟨image, board, -, hboard, -, hloaded⟩ := loaded h
  have hsound : board.Sound := by
    rcases boardOf?_cases hboard with ⟨-, rfl⟩ | ⟨-, rfl⟩ | ⟨-, rfl⟩
    · trivial
    · exact Uxrom.sound_powerOn _ _ _
    · trivial
  rcases hloaded with hplain | htrained
  · rw [hplain]
    exact hsound
  · rw [htrained]
    exact hsound.loadTrainer image.trainer

end Cartridge

namespace Console

/-- Nothing goes wrong in a run: it ends in the console that the requests lead to. -/
theorem serve_never_faults {data : Array UInt8} {cartridge : Cartridge}
    (h : Cartridge.ofBytes data = .ok cartridge) (timing : Timing) (journal : Journal)
    (requests : List Request) : serveChecked cartridge timing journal requests =
      .ok (serve cartridge timing journal requests) := by
  have hboard := Cartridge.sound_ofBytes h
  obtain ⟨hon, hsound⟩ := powerOnChecked_ok hboard timing journal
  unfold serveChecked
  rw [hon, ok_bind]
  exact foldlM_handleChecked hboard requests hsound

/-- Requests of every kind. -/
def everyRequest : List Request :=
  [.write 0x2007 0xFF, .write 0xFFFF 0xFF, .step, .frame, .reset, .powerOn .instruction ⟨none, #[]⟩,
    .frame, .buttons 1 0x81, .button 1 .start true, .write 0x4016 1, .write 0x4016 0, .read 0x4017]

theorem serve_never_faults_uxrom :
    Cartridge.ofBytes (Cartridge.blankImage 0x20) = .ok Cartridge.blankUxrom ∧
      serveChecked Cartridge.blankUxrom .cycle ⟨some .trace, #[]⟩ everyRequest =
        .ok (serve Cartridge.blankUxrom .cycle ⟨some .trace, #[]⟩ everyRequest) :=
  ⟨Cartridge.load_blankUxrom, serve_never_faults Cartridge.load_blankUxrom .cycle _ everyRequest⟩

end Console

end Nes
