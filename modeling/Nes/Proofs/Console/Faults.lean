import Nes.Proofs.Cartridge.Loading
import Nes.Proofs.Console.Handlers
import Nes.Proofs.Console.Interrupts
import Nes.Proofs.Mainboard.Clocks
import Nes.Proofs.Mainboard.Reads

/-!
# Faults

A step whose opcode is no instruction ends after the one read that found it.  Almost everywhere
such a read changes nothing, so that the console stands as before and every later step and frame
ends in the same fault.  The exception is a program counter that points at the data register: the
read moves the register's address on, and the next fetch finds another byte.
-/

namespace Nes

theorem Cpu.stepNoted_error_iff {β : Type} [Bus β] [Journaled β] (cpu next : Cpu β)
    (e : UnknownOpcode) : cpu.stepNoted = (.error e, next) ↔
      Instruction.decode (Bus.read cpu.bus cpu.pc).1 = none ∧
        e = ⟨cpu.pc, (Bus.read cpu.bus cpu.pc).1⟩ ∧
        next = cpu.onBus fun bus => (Bus.read bus cpu.pc).2 := by
  obtain ⟨r, bus⟩ := cpu
  unfold stepNoted fetch read askBus onBus
  dsimp only
  cases hdecoded : Instruction.decode (Bus.read bus r.pc).1 with
  | none =>
    simp only [Prod.mk.injEq, Except.error.injEq, true_and]
    constructor
    · rintro ⟨rfl, rfl⟩
      exact ⟨rfl, rfl⟩
    · rintro ⟨rfl, rfl⟩
      exact ⟨rfl, rfl⟩
  | some instruction => simp

namespace Console

theorem step_error_iff (c next : Console) (e : UnknownOpcode) : c.step = (.error e, next) ↔
    Instruction.decode (Bus.read c.cpu.bus c.cpu.pc).1 = none ∧
      e = ⟨c.cpu.pc, (Bus.read c.cpu.bus c.cpu.pc).1⟩ ∧
      next = ⟨c.cpu.onBus fun m => (Bus.read m c.cpu.pc).2, c.timing⟩ := by
  constructor
  · intro h
    obtain ⟨hdecoded, he, hcpu⟩ := (Cpu.stepNoted_error_iff _ _ _).1 (stepNoted_of_error h)
    have htiming := timing_of_step h
    obtain ⟨cpu, timing⟩ := next
    subst hcpu htiming
    exact ⟨hdecoded, he, rfl⟩
  · rintro ⟨hdecoded, rfl, rfl⟩
    have hstepped := (Cpu.stepNoted_error_iff c.cpu _ _).2 ⟨hdecoded, rfl, rfl⟩
    obtain ⟨cpu, timing⟩ := c
    unfold step
    dsimp only at hstepped ⊢
    rw [hstepped]

/-! ### What is asked of a console that stands still -/

/-- A call that runs the console on. -/
inductive Call
  | step
  | frame
deriving DecidableEq, Repr

def call (c : Console) : Call → Except UnknownOpcode Unit × Console
  | .step => (c.step.1.map fun _ => (), c.step.2)
  | .frame => c.runFrame

/-- The answers to calls made one after the other, and the console after them. -/
def calls (c : Console) : List Call → List (Except UnknownOpcode Unit) × Console
  | [] => ([], c)
  | call :: rest =>
    match c.call call with
    | (answer, next) => (answer :: (next.calls rest).1, (next.calls rest).2)

variable {c next : Console} {e : UnknownOpcode}

theorem call_of_stuck (h : c.step = (.error e, c)) (call : Call) : c.call call = (.error e, c) := by
  cases call with
  | step =>
    show (c.step.1.map _, c.step.2) = _
    rw [h]
    rfl
  | frame =>
    have hframe : c.stepsToFrame (89341 + 1) = (.error e, c) := by
      unfold stepsToFrame
      rw [h]
    show c.runFrame = _
    unfold runFrame
    rw [show Beam.dotsPerLine * Beam.linesPerFrame = 89341 + 1 from rfl, hframe]
    rfl

theorem calls_of_stuck (h : c.step = (.error e, c)) (cs : List Call) :
    c.calls cs = (cs.map fun _ => .error e, c) := by
  induction cs with
  | nil => rfl
  | cons call rest ih =>
    unfold calls
    rw [call_of_stuck h call]
    dsimp only
    rw [ih]
    rfl

/-! ### The state after a fault -/

theorem fault_keeps (h : c.step = (.error e, next)) (hport : ¬ Mainboard.DataPort c.cpu.pc) :
    next = c := by
  obtain ⟨hdecoded, -, hnext⟩ := (c.step_error_iff next e).1 h
  have hbus := c.cpu.bus.read_of_unmapped hport hdecoded
  obtain ⟨⟨r, bus⟩, timing⟩ := c
  rw [hnext]
  unfold Cpu.onBus
  dsimp only at hbus ⊢
  rw [hbus]

theorem fault_moves (h : c.step = (.error e, next)) (hport : Mainboard.DataPort c.cpu.pc) :
    next ≠ c := by
  obtain ⟨-, -, hnext⟩ := (c.step_error_iff next e).1 h
  intro hsame
  rw [hnext] at hsame
  exact c.cpu.bus.read_dataPort_ne hport (congrArg (fun c : Console => c.cpu.bus) hsame)

theorem fault_touches (h : c.step = (.error e, next)) : ∃ v buffer,
    next = ⟨c.cpu.onBus fun m => { m with
      ppu := { m.ppu with scroll := { m.ppu.scroll with v }, buffer } }, c.timing⟩ := by
  by_cases hport : Mainboard.DataPort c.cpu.pc
  · obtain ⟨-, -, hnext⟩ := (c.step_error_iff next e).1 h
    obtain ⟨v, buffer, hread⟩ := c.cpu.bus.ppu.readData_eq c.cpu.bus.cartridge.board
    refine ⟨v, buffer, ?_⟩
    have hbus := congrArg Prod.snd (c.cpu.bus.read_dataPort hport)
    obtain ⟨⟨r, bus⟩, timing⟩ := c
    rw [hnext]
    unfold Cpu.onBus
    dsimp only at hread hbus ⊢
    rw [hbus, ← hread]
    rfl
  · exact ⟨c.cpu.bus.ppu.scroll.v, c.cpu.bus.ppu.buffer, fault_keeps h hport⟩

/-! ### A program that runs out of the data register -/

theorem deliver_quiet {cpu : ConsoleCpu} (hnmi : cpu.bus.ppu.nmi = false)
    (hline : cpu.bus.irqPending = false) : deliver cpu = (none, cpu) := by
  have hdue : due cpu = none := by
    unfold due
    rw [hnmi, hline]
    rfl
  have hkept : cpu.onBus (·.takeNmi.2) = cpu := by
    obtain ⟨r, m⟩ := cpu
    unfold Cpu.onBus Mainboard.takeNmi Mainboard.askPpu Ppu.takeNmi
    dsimp only
    rw [if_neg (Bool.eq_false_iff.1 hnmi)]
  rw [deliver_eq, hdue, hkept]
  rfl

variable {m : Mainboard AudioLatch}

/-- A console at the first dot that reads zero for an opcode goes through the vector of `BRK`. -/
theorem step_brk (hread : Bus.read c.cpu.bus c.cpu.pc = (0, m)) (hjournal : m.journal.limit = none)
    (hbeam : m.ppu.beam = {}) (hnmi : m.ppu.nmi = false) (hline : m.irqPending = false)
    (htiming : c.timing = .instruction) :
    c.step.2.cpu.pc = Word.ofBytes (m.cartridge.board.cpuRead 0xFFFE)
        (m.cartridge.board.cpuRead 0xFFFF) ∧
      ∃ f, c.step.2.cpu.bus =
        ({ m with ppu := { m.ppu with beam := ⟨0, 3, 0⟩ } }.onRam f).stepAudio := by
  obtain ⟨⟨r, bus⟩, timing⟩ := c
  dsimp only at hread htiming
  subst htiming
  have hvector : (0x6000 : UInt16) ≤ Cpu.irqVector ∧ 0x6000 ≤ Cpu.irqVector + 1 := by decide
  have henter := Cpu.enter_cartridge { r with pc := r.pc + 1 } m (r.pc + 1 + 1) true
    hvector.1 hvector.2
  generalize Cpu.pushFrame _ _ _ = f at henter
  have hdots : (m.onRam f).ticks 3 =
      { m with ppu := { m.ppu with beam := ⟨0, 3, 0⟩ } }.onRam f := by
    have hstart : (m.onRam f).ppu.beam = {} := hbeam
    rw [Mainboard.ticks_visible, hstart]
    · rfl
    · rw [hstart]
      decide
    · rw [hstart]
      decide
  unfold step
  dsimp only
  rw [Cpu.stepNoted_brk r hread hjournal, henter]
  dsimp only [Cpu.onRegisters, Cpu.onBus, Timing.dots]
  rw [hdots, deliver_quiet hnmi hline]
  exact ⟨rfl, f, rfl⟩

/-- The console fetches its opcodes from the data register, whose address is `v` and whose buffer
holds `buffer`. -/
structure AtPort (c : Console) (board : Board) (v : UInt16) (buffer : UInt8) : Prop where
  pc : Mainboard.DataPort c.cpu.pc
  v : c.cpu.bus.ppu.scroll.v = v
  buffer : c.cpu.bus.ppu.buffer = buffer
  control : c.cpu.bus.ppu.control = 0
  board : c.cpu.bus.cartridge.board = board

section

variable {board : Board} {v : UInt16} {buffer : UInt8}

theorem AtPort.read (h : c.AtPort board v buffer) (hv : v &&& 0x3FFF < 0x2000) :
    Bus.read c.cpu.bus c.cpu.pc = (buffer, c.cpu.bus.fetchPattern) := by
  have haddr : c.cpu.bus.ppu.dataAddr < 0x2000 := by
    unfold Ppu.dataAddr
    rw [h.v]
    exact hv
  rw [c.cpu.bus.read_dataPort_pattern h.pc haddr, h.buffer]

theorem AtPort.fetched (h : c.AtPort board v buffer) :
    c.cpu.bus.fetchPattern.ppu.scroll.v = (v + 1) &&& 0x7FFF ∧
      c.cpu.bus.fetchPattern.ppu.buffer = board.ppuRead (v &&& 0x3FFF) := by
  have hdots : c.cpu.bus.ppu.dataStep = 1 := by
    unfold Ppu.dataStep
    rw [h.control]
    rfl
  constructor
  · show (c.cpu.bus.ppu.scroll.v + c.cpu.bus.ppu.dataStep) &&& 0x7FFF = _
    rw [hdots, h.v]
  · show c.cpu.bus.cartridge.board.ppuRead (c.cpu.bus.ppu.scroll.v &&& 0x3FFF) = _
    rw [h.board, h.v]

theorem AtPort.step_fault (h : c.AtPort board v buffer) (hv : v &&& 0x3FFF < 0x2000)
    (hbuffer : Instruction.decode buffer = none) : ∃ next,
      c.step = (.error ⟨c.cpu.pc, buffer⟩, next) ∧
      next.AtPort board ((v + 1) &&& 0x7FFF) (board.ppuRead (v &&& 0x3FFF)) := by
  have hread := h.read hv
  obtain ⟨hnext, hfetched⟩ := h.fetched
  obtain ⟨⟨r, m⟩, timing⟩ := c
  refine ⟨⟨⟨r, m.fetchPattern⟩, timing⟩, ?_, h.pc, hnext, hfetched, h.control, h.board⟩
  rw [step_error_iff]
  dsimp only [Cpu.onBus] at hread ⊢
  rw [hread]
  exact ⟨hbuffer, rfl, rfl⟩

theorem AtPort.step_brk (h : c.AtPort board v 0) (hv : v &&& 0x3FFF < 0x2000)
    (hjournal : c.cpu.bus.journal.limit = none) (hbeam : c.cpu.bus.ppu.beam = {})
    (hnmi : c.cpu.bus.ppu.nmi = false) (hline : c.cpu.bus.irqPending = false)
    (htiming : c.timing = .instruction)
    (hvector : Mainboard.DataPort (Word.ofBytes (board.cpuRead 0xFFFE) (board.cpuRead 0xFFFF))) :
    c.step.2.AtPort board ((v + 1) &&& 0x7FFF) (board.ppuRead (v &&& 0x3FFF)) := by
  obtain ⟨hnext, hfetched⟩ := h.fetched
  have hboard : c.cpu.bus.fetchPattern.cartridge.board = board := h.board
  obtain ⟨hpc, f, hbus⟩ := Console.step_brk (h.read hv) hjournal hbeam hnmi hline htiming
  rw [hboard] at hpc
  constructor
  · rw [hpc]
    exact hvector
  all_goals rw [hbus]
  · exact hnext
  · exact hfetched
  · exact h.control
  · exact h.board

theorem AtPort.step_ne (h : c.AtPort board v buffer) (hv : v &&& 0x3FFF < 0x2000)
    (hbuffer : Instruction.decode buffer ≠ none) (e : UnknownOpcode) : c.step.1 ≠ .error e := by
  intro hfault
  have hstep : c.step = (.error e, c.step.2) := by rw [← hfault]
  obtain ⟨hdecoded, -, -⟩ := (c.step_error_iff _ e).1 hstep
  rw [h.read hv] at hdecoded
  exact hbuffer hdecoded

end

/-- A cartridge whose program memory holds one byte only, with a byte for the first pattern. -/
def solid (prg first : UInt8) : Cartridge where
  header := Cartridge.nromHeader
  trainer := none
  board := .nrom ⟨.replicate 0x4000 prg, ⟨#[first] ++ .replicate 0x1FFF 0, false⟩, .horizontal⟩

def solidImage (prg first : UInt8) : Array UInt8 :=
  Cartridge.nromBytes ++ .replicate 0x4000 prg ++ (#[first] ++ .replicate 0x1FFF 0)

theorem load_solid (prg first : UInt8) :
    Cartridge.ofBytes (solidImage prg first) = .ok (solid prg first) := by
  refine Cartridge.load_nrom Array.size_replicate ?_
  have hone : #[first].size = 1 := rfl
  rw [Array.size_append, Array.size_replicate, hone]

theorem powerOn_silent (cartridge : Cartridge) (timing : Timing) :
    powerOn cartridge timing ⟨none, #[]⟩ =
      ⟨⟨{ pc := Cpu.resetEntry cartridge.board, cycles := 7 },
        .powerOn cartridge {} ⟨none, #[]⟩⟩, timing⟩ := by
  unfold powerOn Cpu.powerOn Mainboard.powerOn
  rw [Cpu.resetNoted_eq]
  rfl

theorem cpuRead_solid (prg first : UInt8) {addr : UInt16} (h : 0x8000 ≤ addr) :
    (solid prg first).board.cpuRead addr = prg := by
  have hboard : ¬ addr < 0x6000 := UInt16.not_lt.2 (UInt16.le_trans (by decide) h)
  have hrom : ¬ addr < 0x8000 := UInt16.not_lt.2 h
  have hsize : (Array.replicate 0x4000 prg).size = 0x4000 := Array.size_replicate
  have hoffset : addr.toNat % 0x4000 < 0x4000 := Nat.mod_lt _ (by decide)
  unfold solid Board.cpuRead Nrom.cpuRead Nrom.offset romByte
  dsimp only
  rw [if_neg hboard, if_neg hrom, if_pos hsize, Array.getD_eq_getD_getElem?,
    Array.getElem?_replicate, if_pos hoffset]
  rfl

theorem resetEntry_solid (prg first : UInt8) :
    Cpu.resetEntry (solid prg first).board = Word.ofBytes prg prg := by
  unfold Cpu.resetEntry
  rw [cpuRead_solid prg first (by decide), cpuRead_solid prg first (by decide)]

theorem ppuRead_solid (prg first : UInt8) :
    (solid prg first).board.ppuRead 0 = first ∧ (solid prg first).board.ppuRead 1 = 0 := by
  have hfirst : (#[first] ++ Array.replicate 0x1FFF 0)[0]? = some first := by
    rw [Array.getElem?_append_left Nat.zero_lt_one]
    rfl
  have hsecond : (#[first] ++ Array.replicate 0x1FFF (0 : UInt8))[1]? = some 0 := by
    rw [Array.getElem?_append_right (Nat.le_refl 1), Array.getElem?_replicate]
    rfl
  unfold solid Board.ppuRead Nrom.ppuRead Chr.read romByte
  dsimp only
  rw [if_pos (by decide), if_pos (by decide), Array.getD_eq_getD_getElem?,
    Array.getD_eq_getD_getElem?]
  constructor
  · exact congrArg (·.getD 0) hfirst
  · exact congrArg (·.getD 0) hsecond

/-- The first step out of the data register, which answers zero. -/
theorem atPort_solid (first : UInt8) :
    (powerOn (solid 0x27 first) .instruction ⟨none, #[]⟩).step.2.AtPort
      (solid 0x27 first).board 1 first := by
  have hreset : Mainboard.DataPort (Cpu.resetEntry (solid 0x27 first).board) := by
    rw [resetEntry_solid]
    decide
  have hvector : Mainboard.DataPort (Word.ofBytes ((solid 0x27 first).board.cpuRead 0xFFFE)
      ((solid 0x27 first).board.cpuRead 0xFFFF)) := by
    rw [cpuRead_solid _ _ (by decide), cpuRead_solid _ _ (by decide)]
    decide
  have hstart : AtPort ⟨⟨{ pc := Cpu.resetEntry (solid 0x27 first).board, cycles := 7 },
      .powerOn (solid 0x27 first) {} ⟨none, #[]⟩⟩, .instruction⟩ (solid 0x27 first).board 0 0 :=
    ⟨hreset, rfl, rfl, rfl, rfl⟩
  have hstep := hstart.step_brk (by decide) rfl rfl rfl rfl rfl hvector
  rw [← powerOn_silent] at hstep
  rw [show (0 : UInt16) &&& 0x3FFF = 0 by decide, (ppuRead_solid 0x27 first).1] at hstep
  exact hstep

/-! ### Faults keep the console -/

/-- A fault names the program counter and leaves everything as it was, the address and the buffer
of the data register apart.  These stay too, and every further call ends in the same fault, unless
the program counter points at the data register. -/
theorem fault_keeps_console_iff (h : c.step = (.error e, next)) :
    e.pc = c.cpu.pc ∧
    (∃ v buffer, next = ⟨c.cpu.onBus fun m => { m with
      ppu := { m.ppu with scroll := { m.ppu.scroll with v }, buffer } }, c.timing⟩) ∧
    (next = c ↔ ¬ Mainboard.DataPort c.cpu.pc) ∧
    (¬ Mainboard.DataPort c.cpu.pc → ∀ cs : List Call,
      next.calls cs = (cs.map fun _ => .error e, c)) := by
  obtain ⟨-, he, -⟩ := (c.step_error_iff next e).1 h
  refine ⟨by rw [he], fault_touches h, ⟨?_, fault_keeps h⟩, ?_⟩
  · intro hsame hport
    exact fault_moves h hport hsame
  · intro hport cs
    have hsame := fault_keeps h hport
    subst hsame
    exact calls_of_stuck h cs

/-- A program counter that names an ordinary byte: the first step finds a fault and so does every
other call. -/
theorem fault_keeps_console_solid :
    let c := powerOn (solid 0x92 0) .instruction ⟨none, #[]⟩
    Cartridge.ofBytes (solidImage 0x92 0) = .ok (solid 0x92 0) ∧
      c.step = (.error ⟨0x9292, 0x92⟩, c) ∧
      ∀ cs : List Call, c.calls cs = (cs.map fun _ => .error ⟨0x9292, 0x92⟩, c) := by
  intro c
  have hpc : c.cpu.pc = 0x9292 := by
    show (powerOn _ _ _).cpu.pc = _
    rw [powerOn_silent, resetEntry_solid]
    decide
  have hboard : c.cpu.bus.cartridge.board = (solid 0x92 0).board := by
    show (powerOn _ _ _).cpu.bus.cartridge.board = _
    rw [powerOn_silent]
    rfl
  have hbyte : (Bus.read c.cpu.bus c.cpu.pc).1 = 0x92 := by
    rw [hpc, c.cpu.bus.read_cartridge (by decide), hboard]
    dsimp only
    exact cpuRead_solid 0x92 0 (by decide)
  have hstep : c.step = (.error ⟨0x9292, 0x92⟩,
      ⟨c.cpu.onBus fun m => (Bus.read m c.cpu.pc).2, c.timing⟩) := by
    rw [step_error_iff, hbyte, hpc]
    exact ⟨by decide, rfl, rfl⟩
  have hport : ¬ Mainboard.DataPort c.cpu.pc := by
    rw [hpc]
    decide
  obtain ⟨-, -, hkept, hcalls⟩ := fault_keeps_console_iff hstep
  have hsame := hkept.2 hport
  rw [hsame] at hstep hcalls
  exact ⟨load_solid 0x92 0, hstep, hcalls hport⟩

/-- A program counter at the data register: the fault is gone with the next step. -/
theorem fault_moves_at_dataPort :
    let c := (powerOn (solid 0x27 0x02) .instruction ⟨none, #[]⟩).step.2
    Cartridge.ofBytes (solidImage 0x27 0x02) = .ok (solid 0x27 0x02) ∧
      c.step.1 = .error ⟨c.cpu.pc, 0x02⟩ ∧ c.step.2 ≠ c ∧ ∀ e, c.step.2.step.1 ≠ .error e := by
  intro c
  have hfirst : c.AtPort (solid 0x27 0x02).board 1 0x02 := atPort_solid 0x02
  obtain ⟨next, hstep, hsecond⟩ := hfirst.step_fault (by decide) (by decide)
  rw [show (1 : UInt16) &&& 0x3FFF = 1 by decide, (ppuRead_solid 0x27 0x02).2] at hsecond
  rw [hstep]
  refine ⟨load_solid 0x27 0x02, rfl, fault_moves hstep hfirst.pc, ?_⟩
  exact hsecond.step_ne (by decide) (by decide)

end Console

end Nes
