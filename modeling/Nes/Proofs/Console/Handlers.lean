import Mathlib.Data.UInt
import Nes.Console
import Nes.Proofs.Cpu.Accesses
import Nes.Proofs.Mainboard.Reads

/-!
# Handlers

The vectors lie on the cartridge and the stack in the console's own memory, so that neither a reset
nor the entry of a handler reaches any other device.
-/

namespace Nes

theorem Mainboard.write_ram {α : Type} [AudioUnit α] (m : Mainboard α) {addr : UInt16} (v : UInt8)
    (h : addr < 0x2000) : Bus.write m addr v = m.onRam (·.set addr v) := by
  have howner : Owner.ofWrite addr = .ram := by
    unfold Owner.ofWrite
    rw [if_pos h]
  show m.write addr v = _
  unfold write
  rw [howner]

namespace Cpu

theorem push_ram {α : Type} [AudioUnit α] (r : Registers) (m : Mainboard α) (v : UInt8) :
    push ⟨r, m⟩ v = ⟨{ r with sp := r.sp - 1 }, m.onRam (·.set (stackAddr r.sp) v)⟩ := by
  have hstack : stackAddr r.sp < 0x2000 := UInt16.lt_trans (stackAddr_lt r.sp) (by decide)
  unfold push write onBus
  dsimp only
  rw [m.write_ram v hstack]
  rfl

variable (r : Registers) (m : Mainboard AudioLatch)

theorem readWord_cartridge {addr : UInt16} (hlo : 0x6000 ≤ addr) (hhi : 0x6000 ≤ addr + 1) :
    readWord ⟨r, m⟩ addr = (Word.ofBytes (m.cartridge.board.cpuRead addr)
      (m.cartridge.board.cpuRead (addr + 1)), ⟨r, m⟩) := by
  unfold readWord askBus Bus.readWord Bus.readPair
  dsimp only
  rw [m.read_cartridge hlo]
  dsimp only
  rw [m.read_cartridge hhi]

/-- The way back and then the status in the cells down from the one that the stack pointer names. -/
def pushFrame (sp : UInt8) (returnTo : UInt16) (status : UInt8) (ram : ConsoleRam) : ConsoleRam :=
  ((ram.set (stackAddr sp) (Word.hi returnTo)).set (stackAddr (sp - 1)) (Word.lo returnTo)).set
    (stackAddr (sp - 2)) status

theorem enter_cartridge (returnTo : UInt16) (software : Bool) {vector : UInt16}
    (hlo : 0x6000 ≤ vector) (hhi : 0x6000 ≤ vector + 1) :
    enter ⟨r, m⟩ returnTo software vector = ⟨{ r with
        sp := r.sp - 3
        pc := Word.ofBytes (m.cartridge.board.cpuRead vector)
          (m.cartridge.board.cpuRead (vector + 1))
        flags := { r.flags with interruptDisable := true } },
      m.onRam (pushFrame r.sp returnTo (r.flags.pushed software))⟩ := by
  have htwo : r.sp - 1 - 1 = r.sp - 2 := sub_sub r.sp 1 1
  have hthree : r.sp - 2 - 1 = r.sp - 3 := sub_sub r.sp 2 1
  unfold enter pushWord
  dsimp only
  rw [push_ram, push_ram, push_ram, readWord_cartridge _ _ hlo hhi, htwo, hthree]
  rfl

/-- What the entry of the handler behind a vector does: the program counter and the status go on the
stack, the status without its break bit, interrupts are off, and the program goes on at the word
that the cartridge holds at the vector. -/
structure HandlerEntry (vector : UInt16) (cpu entered : ConsoleCpu) : Prop where
  registers : entered.toRegisters = { cpu.toRegisters with
    pc := Word.ofBytes (cpu.bus.cartridge.board.cpuRead vector)
      (cpu.bus.cartridge.board.cpuRead (vector + 1))
    sp := cpu.sp - 3
    flags := { cpu.flags with interruptDisable := true }
    cycles := cpu.cycles + 7 }
  stack : entered.bus.ram = pushFrame cpu.sp cpu.pc (cpu.flags.pushed false) cpu.bus.ram

theorem interrupt_entry (cpu : ConsoleCpu) {vector : UInt16} (hlo : 0x6000 ≤ vector)
    (hhi : 0x6000 ≤ vector + 1) : HandlerEntry vector cpu (cpu.interrupt vector) := by
  obtain ⟨r, m⟩ := cpu
  unfold interrupt
  rw [enter_cartridge r m r.pc false hlo hhi]
  exact ⟨rfl, rfl⟩

/-- The word at the reset vector. -/
def resetEntry (board : Board) : UInt16 :=
  Word.ofBytes (board.cpuRead 0xFFFC) (board.cpuRead 0xFFFD)

theorem resetNoted_eq : resetNoted ⟨r, m⟩ =
    ⟨{ pc := resetEntry m.cartridge.board, cycles := 7 },
      m.onJournal (·.add (.resetVector (resetEntry m.cartridge.board)))⟩ := by
  unfold resetNoted reset
  rw [readWord_cartridge _ _ (by decide) (by decide)]
  rfl

/-- An opcode of zero is `BRK`, which enters a handler. -/
theorem stepNoted_brk {m other : Mainboard AudioLatch} (hread : Bus.read m r.pc = (0, other))
    (hjournal : other.journal.limit = none) : stepNoted ⟨r, m⟩ =
      (.ok 7, (enter ⟨{ r with pc := r.pc + 1 }, other⟩ (r.pc + 1 + 1) true irqVector).onRegisters
        fun r => { r with cycles := r.cycles + 7 }) := by
  have hsilent : (Journaled.journal other).admits .trace = false := by
    show other.journal.admits .trace = false
    unfold Journal.admits
    rw [hjournal]
  have hfetch : fetch ⟨r, m⟩ =
      (.ok ⟨0, ⟨.control .brk, .implied, true⟩, { mode := .implied }⟩, ⟨r, other⟩) := by
    unfold fetch read askBus
    dsimp only
    rw [hread]
    rfl
  unfold stepNoted
  rw [hfetch]
  unfold noteInstruction
  dsimp only
  rw [hsilent]
  rfl

end Cpu

end Nes
