import Mathlib.Data.UInt
import Nes.Proofs.Console.Handlers

/-!
# The stack

The stack lies in the console's own memory, so that pushes and pulls reach no other device, and
its 256 cells are distinct.  The bytes above the stack pointer are then a list that a push
lengthens and a pull shortens, wherever in the page they lie.  What a call or the entry of a
handler put on top of the list is what its return takes off again, and with it go the program
counter, the stack pointer and the conditions.
-/

namespace Nes

namespace Mainboard

variable {α : Type} [AudioUnit α] (m : Mainboard α)

theorem ram_read (addr : UInt16) : (Bus.read m addr).2.ram = m.ram := by
  show (m.read addr).2.ram = m.ram
  unfold read
  cases Owner.ofRead addr <;> rfl

theorem read_ram {addr : UInt16} (h : addr < 0x2000) : Bus.read m addr = (m.ram.get addr, m) := by
  have howner : Owner.ofRead addr = .ram := by
    unfold Owner.ofRead
    rw [if_pos h]
  show m.read addr = _
  unfold read
  rw [howner]

end Mainboard

namespace Cpu

/-! ### The bytes on top -/

theorem toNat_stackAddr (sp : UInt8) : (stackAddr sp).toNat = 0x0100 + sp.toNat := by
  have hsp := sp.toNat_lt
  have hpage : (0x0100 : UInt16).toNat = 0x0100 := rfl
  simp only [stackAddr, UInt16.toNat_add, UInt8.toNat_toUInt16]
  omega

theorem stackAddr_cell_ne {sp other : UInt8} (h : sp ≠ other) :
    (stackAddr sp).toNat % 0x800 ≠ (stackAddr other).toNat % 0x800 := by
  have hne : sp.toNat ≠ other.toNat := fun heq => h (UInt8.toNat_inj.1 heq)
  have hsp := sp.toNat_lt
  have hother := other.toNat_lt
  rw [toNat_stackAddr, toNat_stackAddr]
  omega

/-- The `n` bytes pushed last, the last one first, while the stack pointer is `sp`. -/
def top (ram : ConsoleRam) (sp : UInt8) (n : Nat) : List UInt8 :=
  (List.range n).map fun k => ram.get (stackAddr (sp + 1 + UInt8.ofNat k))

theorem top_succ (ram : ConsoleRam) (sp : UInt8) (n : Nat) :
    top ram sp (n + 1) = ram.get (stackAddr (sp + 1)) :: top ram (sp + 1) n := by
  have hhead : sp + 1 + UInt8.ofNat 0 = sp + 1 := UInt8.add_zero _
  have htail : ∀ k : Nat, sp + 1 + UInt8.ofNat (k + 1) = sp + 1 + 1 + UInt8.ofNat k := by
    intro k
    rw [UInt8.ofNat_add, UInt8.add_comm (UInt8.ofNat k), ← UInt8.add_assoc]
    rfl
  unfold top
  rw [List.range_succ_eq_map, List.map_cons, List.map_map]
  simp only [Function.comp_def, hhead, htail]

theorem top_set (ram : ConsoleRam) (sp v : UInt8) {n : Nat} (hn : n < 256) :
    top (ram.set (stackAddr sp) v) sp n = top ram sp n := by
  refine List.map_congr_left fun k hk => ram.get_set_of_mod_ne v (stackAddr_cell_ne fun heq => ?_)
  -- only the 256th cell above the pointer would be the pointer's own
  have hk := List.mem_range.1 hk
  have hnat := congrArg UInt8.toNat heq
  have hone : (1 : UInt8).toNat = 1 := rfl
  simp only [UInt8.toNat_add, hone, UInt8.toNat_ofNat'] at hnat
  omega

variable {α : Type} [AudioUnit α]

/-! ### Pushes -/

theorem top_push (cpu : Cpu (Mainboard α)) (v : UInt8) {n : Nat} (hn : n < 256) :
    top (cpu.push v).bus.ram (cpu.push v).sp (n + 1) = v :: top cpu.bus.ram cpu.sp n := by
  obtain ⟨r, m⟩ := cpu
  have hcell : r.sp - 1 + 1 = r.sp := UInt8.sub_add_cancel _ _
  rw [push_ram, top_succ]
  dsimp only [Mainboard.onRam]
  rw [hcell, Memory.get_set_self, top_set _ _ _ hn]

theorem top_pushWord (cpu : Cpu (Mainboard α)) (w : UInt16) :
    top (cpu.pushWord w).bus.ram (cpu.pushWord w).sp 2 = [Word.lo w, Word.hi w] := by
  unfold pushWord
  rw [top_push _ _ (by decide), top_push _ _ (by decide)]
  rfl

theorem ram_readWord (cpu : Cpu (Mainboard α)) (addr : UInt16) :
    (cpu.readWord addr).2.bus.ram = cpu.bus.ram := by
  show (Bus.read (Bus.read cpu.bus addr).2 (addr + 1)).2.ram = cpu.bus.ram
  rw [Mainboard.ram_read, Mainboard.ram_read]

/-- The entry of a handler pushes the status on top of the way back. -/
theorem top_enter (cpu : Cpu (Mainboard α)) (returnTo : UInt16) (software : Bool)
    (vector : UInt16) :
    (cpu.enter returnTo software vector).sp = cpu.sp - 1 - 1 - 1 ∧
      top (cpu.enter returnTo software vector).bus.ram (cpu.sp - 1 - 1 - 1) 3 =
        [cpu.flags.pushed software, Word.lo returnTo, Word.hi returnTo] := by
  have hpushed := top_push (cpu.pushWord returnTo) (cpu.flags.pushed software)
    (show 2 < 256 by decide)
  rw [top_pushWord] at hpushed
  have hram : (cpu.enter returnTo software vector).bus.ram =
      ((cpu.pushWord returnTo).push (cpu.flags.pushed software)).bus.ram :=
    ram_readWord ((cpu.pushWord returnTo).push (cpu.flags.pushed software)) vector
  rw [hram]
  exact ⟨rfl, hpushed⟩

/-! ### Pulls -/

section Pulls

variable {r : Registers} {m : Mainboard α} {n : Nat} {v lo hi : UInt8} {rest : List UInt8}

theorem pop_of_top (h : top m.ram r.sp (n + 1) = v :: rest) :
    pop ⟨r, m⟩ = (v, ⟨{ r with sp := r.sp + 1 }, m⟩) ∧ top m.ram (r.sp + 1) n = rest := by
  have hstack : stackAddr (r.sp + 1) < 0x2000 := UInt16.lt_trans (stackAddr_lt _) (by decide)
  rw [top_succ] at h
  obtain ⟨hv, hrest⟩ := List.cons.inj h
  refine ⟨?_, hrest⟩
  unfold pop read onRegisters askBus
  dsimp only
  rw [m.read_ram hstack, hv]

theorem popWord_of_top (h : top m.ram r.sp (n + 2) = lo :: hi :: rest) :
    popWord ⟨r, m⟩ = (Word.ofBytes lo hi, ⟨{ r with sp := r.sp + 1 + 1 }, m⟩) := by
  obtain ⟨hlo, hmore⟩ := pop_of_top h
  obtain ⟨hhi, -⟩ := pop_of_top (r := { r with sp := r.sp + 1 }) hmore
  unfold popWord
  rw [hlo]
  dsimp only
  rw [hhi]

theorem rts_of_top (operand : Operand) (h : top m.ram r.sp 2 = [lo, hi]) :
    control .rts operand ⟨r, m⟩ =
      ⟨{ r with pc := Word.ofBytes lo hi + 1, sp := r.sp + 1 + 1 }, m⟩ := by
  unfold control
  dsimp only
  rw [popWord_of_top h]
  rfl

theorem rti_of_top (operand : Operand) (h : top m.ram r.sp 3 = [v, lo, hi]) :
    control .rti operand ⟨r, m⟩ =
      ⟨{ r with pc := Word.ofBytes lo hi, sp := r.sp + 1 + 1 + 1, flags := .pulled v }, m⟩ := by
  obtain ⟨hv, hmore⟩ := pop_of_top h
  unfold control
  dsimp only
  rw [hv]
  dsimp only
  rw [popWord_of_top (r := { r with sp := r.sp + 1 }) hmore]
  rfl

end Pulls

/-! ### Entries and returns -/

/-- The opcode at the program counter. -/
def opcode (cpu : Cpu (Mainboard α)) : UInt8 := (Bus.read cpu.bus cpu.pc).1

theorem perform_control (opcode : UInt8) (op : ControlOp) (mode : Mode) (operand : Operand)
    (r : Registers) (m : Mainboard α) :
    perform ⟨opcode, ⟨.control op, mode, true⟩, operand⟩ ⟨r, m⟩ =
      (Instruction.controlCycles op mode,
        (control op operand ⟨{ r with pc := r.pc + (1 + mode.operandLength).toUInt16 },
          m⟩).onRegisters fun r =>
            { r with cycles := r.cycles + Instruction.controlCycles op mode }) := by
  unfold perform execute
  rfl

/-- A control operation is carried out on a mainboard whose memory is still that of the step's
start. -/
theorem stepNoted_control {cpu : Cpu (Mainboard α)} {b : UInt8} (op : ControlOp) (mode : Mode)
    (h : cpu.opcode = b) (hdecode : Instruction.decode b = some ⟨.control op, mode, true⟩) :
    ∃ operand bus,
      bus.ram = cpu.bus.ram ∧ cpu.stepNoted = (.ok (Instruction.controlCycles op mode),
        (control op operand ⟨{ cpu.toRegisters with
          pc := cpu.pc + (1 + mode.operandLength).toUInt16 }, bus⟩).onRegisters fun r =>
            { r with cycles := r.cycles + Instruction.controlCycles op mode }) := by
  rw [← h] at hdecode
  obtain ⟨operand, bus, hram, hstep⟩ :=
    stepNoted_performs (P := fun m : Mainboard α => m.ram = cpu.bus.ram)
      (fun m addr hram => (m.ram_read addr).trans hram) (fun _ _ hram => hram) hdecode rfl
  refine ⟨operand, bus, hram, ?_⟩
  rw [hstep, perform_control]

theorem stepNoted_rts {cpu : Cpu (Mainboard α)} {lo hi : UInt8} (h : cpu.opcode = 0x60)
    (htop : top cpu.bus.ram cpu.sp 2 = [lo, hi]) : cpu.stepNoted.1 = .ok 6 ∧
      cpu.stepNoted.2.toRegisters = { cpu.toRegisters with
        pc := Word.ofBytes lo hi + 1
        sp := cpu.sp + 1 + 1
        cycles := cpu.cycles + 6 } := by
  obtain ⟨operand, bus, hram, hstep⟩ := stepNoted_control .rts .implied h rfl
  rw [← hram] at htop
  have hdone := rts_of_top (r := { cpu.toRegisters with pc := cpu.pc + 1 }) operand htop
  rw [hstep]
  exact ⟨rfl, congrArg (fun cpu => { cpu.toRegisters with cycles := cpu.cycles + 6 }) hdone⟩

theorem stepNoted_rti {cpu : Cpu (Mainboard α)} {v lo hi : UInt8} (h : cpu.opcode = 0x40)
    (htop : top cpu.bus.ram cpu.sp 3 = [v, lo, hi]) : cpu.stepNoted.1 = .ok 6 ∧
      cpu.stepNoted.2.toRegisters = { cpu.toRegisters with
        pc := Word.ofBytes lo hi
        sp := cpu.sp + 1 + 1 + 1
        flags := .pulled v
        cycles := cpu.cycles + 6 } := by
  obtain ⟨operand, bus, hram, hstep⟩ := stepNoted_control .rti .implied h rfl
  rw [← hram] at htop
  have hdone := rti_of_top (r := { cpu.toRegisters with pc := cpu.pc + 1 }) operand htop
  rw [hstep]
  exact ⟨rfl, congrArg (fun cpu => { cpu.toRegisters with cycles := cpu.cycles + 6 }) hdone⟩

/-- `entered` is `cpu` just inside a handler that is to return to `returnTo`. -/
inductive Enters (cpu : Cpu (Mainboard α)) : UInt16 → Cpu (Mainboard α) → Prop
  | nmi : Enters cpu cpu.pc cpu.nmi
  | irq {entered : Cpu (Mainboard α)} (h : cpu.irq = (true, entered)) : Enters cpu cpu.pc entered
  | brk (h : cpu.opcode = 0x00) : Enters cpu (cpu.pc + 2) cpu.stepNoted.2

theorem Enters.frame {cpu entered : Cpu (Mainboard α)} {returnTo : UInt16}
    (h : Enters cpu returnTo entered) : entered.sp = cpu.sp - 1 - 1 - 1 ∧ ∃ software,
      top entered.bus.ram (cpu.sp - 1 - 1 - 1) 3 =
        [cpu.flags.pushed software, Word.lo returnTo, Word.hi returnTo] := by
  cases h with
  | nmi =>
    obtain ⟨hsp, htop⟩ := cpu.top_enter cpu.pc false nmiVector
    exact ⟨hsp, false, htop⟩
  | irq h =>
    obtain ⟨hsp, htop⟩ := cpu.top_enter cpu.pc false irqVector
    unfold Cpu.irq at h
    split at h
    · cases h
    · cases h
      exact ⟨hsp, false, htop⟩
  | brk h =>
    obtain ⟨operand, bus, -, hstep⟩ := stepNoted_control .brk .implied h rfl
    obtain ⟨hsp, htop⟩ := top_enter ⟨{ cpu.toRegisters with pc := cpu.pc + 1 }, bus⟩
      (cpu.pc + 1 + 1) true irqVector
    have hreturn : cpu.pc + 1 + 1 = cpu.pc + 2 := UInt16.add_assoc _ _ _
    rw [hstep, ← hreturn]
    exact ⟨hsp, true, htop⟩

theorem frame_jsr {cpu : Cpu (Mainboard α)} (h : cpu.opcode = 0x20) :
    cpu.stepNoted.2.sp = cpu.sp - 1 - 1 ∧
      top cpu.stepNoted.2.bus.ram (cpu.sp - 1 - 1) 2 =
        [Word.lo (cpu.pc + 3 - 1), Word.hi (cpu.pc + 3 - 1)] := by
  obtain ⟨operand, bus, -, hstep⟩ := stepNoted_control .jsr .absolute h rfl
  have htop := top_pushWord ⟨{ cpu.toRegisters with pc := cpu.pc + 3 }, bus⟩ (cpu.pc + 3 - 1)
  rw [hstep]
  exact ⟨rfl, htop⟩

/-! ### Returns undo entries -/

/-- `RTI` and `RTS` take off what an entry and a call put on, whatever ran in between and wherever
the stack stands in its page. -/
theorem returns_undo_entries :
    (∀ (cpu entered later : Cpu (Mainboard α)) (returnTo : UInt16), Enters cpu returnTo entered →
      later.sp = entered.sp → top later.bus.ram later.sp 3 = top entered.bus.ram entered.sp 3 →
      later.opcode = 0x40 →
      later.stepNoted.1 = .ok 6 ∧ later.stepNoted.2.toRegisters = { later.toRegisters with
        pc := returnTo
        sp := cpu.sp
        flags := { cpu.flags with breakCommand := false }
        cycles := later.cycles + 6 }) ∧
    (∀ cpu called later : Cpu (Mainboard α), cpu.opcode = 0x20 → called = cpu.stepNoted.2 →
      later.sp = called.sp → top later.bus.ram later.sp 2 = top called.bus.ram called.sp 2 →
      later.opcode = 0x60 →
      later.stepNoted.1 = .ok 6 ∧ later.stepNoted.2.toRegisters = { later.toRegisters with
        pc := cpu.pc + 3
        sp := cpu.sp
        cycles := later.cycles + 6 }) := by
  constructor
  · intro cpu entered later returnTo henters hsp htop hopcode
    -- what ran in between is told by the frame alone, which is still on top
    obtain ⟨hentered, software, hframe⟩ := henters.frame
    rw [← hentered] at hframe
    have hpointer : cpu.sp - 1 - 1 - 1 + 1 + 1 + 1 = cpu.sp := by simp
    have hreturned := stepNoted_rti hopcode (htop.trans hframe)
    rwa [Word.ofBytes_lo_hi, Flags.pulled_pushed, hsp, hentered, hpointer] at hreturned
  · intro cpu called later hcall hcalled hsp htop hopcode
    obtain ⟨hentered, hframe⟩ := frame_jsr hcall
    rw [← hentered, ← hcalled] at hframe
    rw [← hcalled] at hentered
    have hpointer : cpu.sp - 1 - 1 + 1 + 1 = cpu.sp := by simp
    have hnext : cpu.pc + 3 - 1 + 1 = cpu.pc + 3 := UInt16.sub_add_cancel _ _
    have hreturned := stepNoted_rts hopcode (htop.trans hframe)
    rwa [Word.ofBytes_lo_hi, hnext, hsp, hentered, hpointer] at hreturned

/-- A processor at `BRK`, or at a call, that has two cells left below its stack pointer; the handler
and the routine load a register and return. -/
def atWrap (pc : UInt16) : Cpu (Mainboard AudioLatch) where
  sp := 0x01
  pc := pc
  flags := { carry := true, decimal := true, breakCommand := true }
  bus := { Mainboard.powerOn ⟨⟨0, 0, 0, .horizontal, false, false⟩, none,
      .nrom ⟨#[], ⟨#[], false⟩, .horizontal⟩⟩ {} ⟨none, #[]⟩ with
    ram := (((Memory.filled 0).setBytes 0x0000 [0xA9, 0x07, 0x40]).setBytes 0x0300
      [0x20, 0x10, 0x03]).setBytes 0x0310 [0xA9, 0x07, 0x60] }

theorem atWrap_frames :
    ((atWrap 0x0200).opcode = 0x00 ∧
      (atWrap 0x0200).stepNoted.2.stepNoted.2.sp = (atWrap 0x0200).stepNoted.2.sp ∧
      top (atWrap 0x0200).stepNoted.2.stepNoted.2.bus.ram
          (atWrap 0x0200).stepNoted.2.stepNoted.2.sp 3 =
        top (atWrap 0x0200).stepNoted.2.bus.ram (atWrap 0x0200).stepNoted.2.sp 3 ∧
      (atWrap 0x0200).stepNoted.2.stepNoted.2.opcode = 0x40) ∧
    ((atWrap 0x0300).opcode = 0x20 ∧
      (atWrap 0x0300).stepNoted.2.stepNoted.2.sp = (atWrap 0x0300).stepNoted.2.sp ∧
      top (atWrap 0x0300).stepNoted.2.stepNoted.2.bus.ram
          (atWrap 0x0300).stepNoted.2.stepNoted.2.sp 2 =
        top (atWrap 0x0300).stepNoted.2.bus.ram (atWrap 0x0300).stepNoted.2.sp 2 ∧
      (atWrap 0x0300).stepNoted.2.stepNoted.2.opcode = 0x60) := by
  decide +kernel

/-- Both pairs where the stack pointer passes the end of its page. -/
theorem returns_undo_entries_at_wrap :
    let handled := (atWrap 0x0200).stepNoted.2.stepNoted.2
    let routine := (atWrap 0x0300).stepNoted.2.stepNoted.2
    (atWrap 0x0200).Enters 0x0202 (atWrap 0x0200).stepNoted.2 ∧
      (handled.stepNoted.1 = .ok 6 ∧ handled.stepNoted.2.toRegisters = { handled.toRegisters with
        pc := 0x0202
        sp := 0x01
        flags := { carry := true, decimal := true }
        cycles := handled.cycles + 6 }) ∧
      routine.stepNoted.1 = .ok 6 ∧ routine.stepNoted.2.toRegisters = { routine.toRegisters with
        pc := 0x0303
        sp := 0x01
        cycles := routine.cycles + 6 } := by
  obtain ⟨⟨hbrk, hsp, htop, hrti⟩, hjsr, hsp', htop', hrts⟩ := atWrap_frames
  obtain ⟨hreturns, hcalls⟩ := @returns_undo_entries AudioLatch _
  have henters : (atWrap 0x0200).Enters 0x0202 (atWrap 0x0200).stepNoted.2 := .brk hbrk
  exact ⟨henters, hreturns _ _ _ _ henters hsp htop hrti, hcalls _ _ _ hjsr rfl hsp' htop' hrts⟩

end Cpu

end Nes
