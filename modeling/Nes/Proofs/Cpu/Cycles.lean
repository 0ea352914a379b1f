import Nes.Bus.Journaled

/-!
# How long an instruction takes

No instruction takes more than eight cycles: a change in place through an indexed pointer takes
that many, and a page or a branch adds cycles only where fewer are spent.  None takes less than two.
What an instruction takes is also what it adds to the processor's own count, which no operation
changes otherwise; the entry of a handler from outside adds seven.
-/

namespace Nes

namespace Instruction

theorem readCycles_le (mode : Mode) : readCycles mode ≤ 6 := by
  cases mode <;> decide

theorem writeCycles_le (mode : Mode) : writeCycles mode ≤ 6 := by
  cases mode <;> decide

theorem modifyCycles_le (mode : Mode) : modifyCycles mode ≤ 8 := by
  cases mode <;> decide

theorem controlCycles_le (op : ControlOp) (mode : Mode) : controlCycles op mode ≤ 7 := by
  cases op <;> cases mode <;> decide

theorem cycles_add_page_le (i : Instruction) (crossed : Bool) :
    i.cycles + (if i.pagePenalty && crossed then 1 else 0) ≤ 8 := by
  have hpage : (if i.pagePenalty && crossed then 1 else 0) ≤ 1 := by split <;> decide
  obtain ⟨operation, mode, documented⟩ := i
  cases operation with
  | read op => exact Nat.le_trans (Nat.add_le_add (readCycles_le mode) hpage) (by decide)
  | write op => exact Nat.le_trans (writeCycles_le mode) (by decide)
  | modify op => exact modifyCycles_le mode
  | combined op => exact modifyCycles_le mode
  | register op => exact (by decide : 2 ≤ 8)
  | branch op => exact (by decide : 2 ≤ 8)
  | control op => exact Nat.le_trans (controlCycles_le op mode) (by decide)
  | nop => exact Nat.le_trans (Nat.add_le_add (readCycles_le mode) hpage) (by decide)

theorem two_le_readCycles (mode : Mode) : 2 ≤ readCycles mode := by
  cases mode <;> decide

theorem two_le_writeCycles (mode : Mode) : 2 ≤ writeCycles mode := by
  cases mode <;> decide

theorem two_le_modifyCycles (mode : Mode) : 2 ≤ modifyCycles mode := by
  cases mode <;> decide

theorem two_le_controlCycles (op : ControlOp) (mode : Mode) : 2 ≤ controlCycles op mode := by
  cases op <;> cases mode <;> decide

theorem two_le_cycles (i : Instruction) : 2 ≤ i.cycles := by
  obtain ⟨operation, mode, documented⟩ := i
  cases operation with
  | read op => exact two_le_readCycles mode
  | write op => exact two_le_writeCycles mode
  | modify op => exact two_le_modifyCycles mode
  | combined op => exact two_le_modifyCycles mode
  | register op => exact Nat.le_refl 2
  | branch op => exact Nat.le_refl 2
  | control op => exact two_le_controlCycles op mode
  | nop => exact two_le_readCycles mode

end Instruction

/-! ### Registers keep the count -/

theorem ReadOp.cycles_apply (op : ReadOp) (r : Registers) (v : UInt8) :
    (op.apply r v).cycles = r.cycles := by
  cases op <;> rfl

theorem RegisterOp.cycles_apply (op : RegisterOp) (r : Registers) :
    (op.apply r).cycles = r.cycles := by
  cases op <;> rfl

namespace Cpu

variable {β : Type}

theorem branch_cycles_le (op : BranchOp) (operand : Operand) (cpu : Cpu β) :
    (cpu.branch op operand).1 ≤ 2 := by
  unfold branch
  split
  · dsimp only
    split <;> omega
  · exact Nat.zero_le 2

theorem cycles_branch (cpu : Cpu β) (op : BranchOp) (operand : Operand) :
    (cpu.branch op operand).2.cycles = cpu.cycles := by
  unfold branch
  split <;> rfl

variable [Bus β]

theorem execute_cycles_le (i : Instruction) (operand : Operand) (cpu : Cpu β) :
    i.cycles + (if i.pagePenalty && operand.crossed then 1 else 0) +
      (cpu.execute i.operation operand).1 ≤ 8 := by
  have hcycles := i.cycles_add_page_le operand.crossed
  obtain ⟨operation, mode, documented⟩ := i
  cases operation with
  | branch op =>
    have hbranch := branch_cycles_le op operand cpu
    exact Nat.le_trans (Nat.add_le_add_left hbranch 2) (by decide)
  | _ => exact hcycles

theorem perform_cycles_le (f : Fetched) (cpu : Cpu β) : (cpu.perform f).1 ≤ 8 :=
  execute_cycles_le f.instruction f.operand _

theorem stepNoted_cycles_le [Journaled β] {cpu : Cpu β} {n : Nat} (h : cpu.stepNoted.1 = .ok n) :
    n ≤ 8 := by
  unfold stepNoted at h
  split at h
  · cases h
  · rename_i f next hfetched
    cases h
    exact perform_cycles_le f _

theorem two_le_perform_cycles (f : Fetched) (cpu : Cpu β) : 2 ≤ (cpu.perform f).1 := by
  have hbase := f.instruction.two_le_cycles
  show 2 ≤ f.instruction.cycles + _ + _
  omega

theorem two_le_stepNoted_cycles [Journaled β] {cpu : Cpu β} {n : Nat}
    (h : cpu.stepNoted.1 = .ok n) : 2 ≤ n := by
  unfold stepNoted at h
  split at h
  · cases h
  · rename_i f next hfetched
    cases h
    exact two_le_perform_cycles f _

/-! ### The processor's own count -/

theorem cycles_load (cpu : Cpu β) (place : Place) : (cpu.load place).2.cycles = cpu.cycles := by
  cases place <;> rfl

theorem cycles_store (cpu : Cpu β) (place : Place) (v : UInt8) :
    (cpu.store place v).cycles = cpu.cycles := by
  cases place <;> rfl

theorem cycles_modify (cpu : Cpu β) (place : Place) (op : ModifyOp) :
    (cpu.modify place op).2.cycles = cpu.cycles := by
  cases place <;> rfl

theorem cycles_control (cpu : Cpu β) (op : ControlOp) (operand : Operand) :
    (cpu.control op operand).cycles = cpu.cycles := by
  cases op <;> rfl

theorem cycles_execute (cpu : Cpu β) (op : Operation) (operand : Operand) :
    (cpu.execute op operand).2.cycles = cpu.cycles := by
  cases op with
  | read op =>
    show (op.apply (cpu.load operand.place).2.toRegisters _).cycles = cpu.cycles
    rw [ReadOp.cycles_apply, cycles_load]
  | write op => exact cpu.cycles_store operand.place _
  | modify op => exact cpu.cycles_modify operand.place op
  | combined op =>
    show (op.use.apply (cpu.modify operand.place op.change).2.toRegisters _).cycles = cpu.cycles
    rw [ReadOp.cycles_apply, cycles_modify]
  | register op => exact op.cycles_apply cpu.toRegisters
  | branch op => exact cpu.cycles_branch op operand
  | control op => exact cpu.cycles_control op operand
  | nop => rfl

theorem cycles_perform (f : Fetched) (cpu : Cpu β) :
    (cpu.perform f).2.cycles = cpu.cycles + (cpu.perform f).1 := by
  have hkept := (cpu.onRegisters fun r =>
    { r with pc := r.pc + (1 + f.instruction.mode.operandLength).toUInt16 }).cycles_execute
      f.instruction.operation f.operand
  exact congrArg (· + (cpu.perform f).1) hkept

theorem registers_fetch (cpu : Cpu β) : cpu.fetch.2.toRegisters = cpu.toRegisters := by
  unfold fetch
  dsimp only
  split <;> rfl

/-- A step adds what it reports, and one that fails adds nothing. -/
theorem cycles_stepNoted [Journaled β] (cpu : Cpu β) :
    cpu.stepNoted.2.cycles = cpu.cycles + cpu.stepNoted.1.toOption.getD 0 := by
  have hfetched : cpu.fetch.2.cycles = cpu.cycles := congrArg Registers.cycles cpu.registers_fetch
  unfold stepNoted
  rcases hfetch : cpu.fetch with ⟨result, next⟩
  rw [hfetch] at hfetched
  cases result with
  | error e => exact hfetched
  | ok f =>
    have hnoted : (next.noteInstruction f).cycles = next.cycles := by
      obtain ⟨r, bus⟩ := next
      unfold noteInstruction
      dsimp only
      split <;> rfl
    have hperformed := (next.noteInstruction f).cycles_perform f
    rw [hnoted, hfetched] at hperformed
    exact hperformed

theorem cycles_resetNoted [Journaled β] (cpu : Cpu β) : cpu.resetNoted.cycles = 7 := rfl

theorem cycles_interrupt (cpu : Cpu β) (vector : UInt16) :
    (cpu.interrupt vector).cycles = cpu.cycles + 7 := rfl

end Cpu

end Nes
