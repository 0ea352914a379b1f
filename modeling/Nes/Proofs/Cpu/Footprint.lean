import Nes.Proofs.Cpu.Status
import Nes.Proofs.Mainboard.Stack

/-!
# What an instruction leaves alone

Helpers that many operations share set conditions on their behalf, so that what one instruction may
change does not show in any single place.  Here each operation is given the conditions that it may
set, where it leaves the stack pointer and whether it goes elsewhere.  All else is left alone, over
any bus and whatever the registers hold.
-/

namespace Nes

/-! ### Conditions -/

inductive Condition
  | carry | zero | interruptDisable | decimal | breakCommand | overflow | negative
deriving DecidableEq, Repr

namespace Flags

def get (f : Flags) : Condition → Bool
  | .carry => f.carry
  | .zero => f.zero
  | .interruptDisable => f.interruptDisable
  | .decimal => f.decimal
  | .breakCommand => f.breakCommand
  | .overflow => f.overflow
  | .negative => f.negative

theorem ext_get {f g : Flags} (h : ∀ c, f.get c = g.get c) : f = g := by
  obtain ⟨carry, zero, interruptDisable, decimal, breakCommand, overflow, negative⟩ := f
  obtain ⟨carry', zero', interruptDisable', decimal', breakCommand', overflow', negative'⟩ := g
  rw [Flags.mk.injEq]
  exact ⟨h .carry, h .zero, h .interruptDisable, h .decimal, h .breakCommand, h .overflow,
    h .negative⟩

theorem get_withZN {c : Condition} (hc : c ∉ [.zero, .negative]) (f : Flags) (v : UInt8) :
    (f.withZN v).get c = f.get c := by
  cases c with
  | zero | negative => exact absurd (by decide) hc
  | _ => rfl

end Flags

/-! ### What operations set -/

def ReadOp.sets : ReadOp → List Condition
  | adc | sbc => [.carry, .zero, .overflow, .negative]
  | cmp | cpx | cpy => [.carry, .zero, .negative]
  | bit => [.zero, .overflow, .negative]
  | _ => [.zero, .negative]

/-- Zero and negative are not among these: the change alone does not set them. -/
def ModifyOp.sets : ModifyOp → List Condition
  | inc | dec => []
  | _ => [.carry]

def RegisterOp.sets : RegisterOp → List Condition
  | txs => []
  | clc | sec => [.carry]
  | cli | sei => [.interruptDisable]
  | cld | sed => [.decimal]
  | clv => [.overflow]
  | _ => [.zero, .negative]

def ControlOp.sets : ControlOp → List Condition
  | pla => [.zero, .negative]
  | plp | rti => [.carry, .zero, .interruptDisable, .decimal, .breakCommand, .overflow, .negative]
  | brk => [.interruptDisable]
  | _ => []

namespace Operation

/-- The conditions that an operation may change. -/
def sets : Operation → List Condition
  | read op => op.sets
  | modify op => op.sets ++ [.zero, .negative]
  | combined op => op.change.sets ++ op.use.sets
  | register op => op.sets
  | control op => op.sets
  | write _ | branch _ | nop => []

/-- Where the operation leaves the stack pointer. -/
def stackPointer (op : Operation) (r : Registers) : UInt8 :=
  match op with
  | control .pha | control .php => r.sp - 1
  | control .pla | control .plp => r.sp + 1
  | control .jsr => r.sp - 2
  | control .rts => r.sp + 2
  | control .brk => r.sp - 3
  | control .rti => r.sp + 3
  | register .txs => r.x
  | _ => r.sp

/-- Whether the next instruction is not the one that follows. -/
def jumps (op : Operation) (f : Flags) : Bool :=
  match op with
  | branch op => op.taken f
  | control .jmp | control .jsr | control .rts | control .rti | control .brk => true
  | _ => false

/-- Stores, branches, jumps and calls, pushes, `TXS` and every `NOP`. -/
def keepsFlags : Operation → Bool
  | write _ | branch _ | nop | register .txs => true
  | control .jmp | control .jsr | control .rts | control .pha | control .php => true
  | _ => false

def decimalOps : List Operation := [.register .cld, .register .sed, .control .plp, .control .rti]

def interruptOps : List Operation :=
  [.register .cli, .register .sei, .control .plp, .control .rti, .control .brk]

def overflowOps : List Operation :=
  [.read .adc, .read .sbc, .read .bit, .register .clv, .control .plp, .control .rti,
    .combined .isb, .combined .rra]

def carryOps : List Operation :=
  [.read .adc, .read .sbc, .read .cmp, .read .cpx, .read .cpy,
    .modify .asl, .modify .lsr, .modify .rol, .modify .ror, .register .clc, .register .sec,
    .control .plp, .control .rti,
    .combined .dcp, .combined .isb, .combined .slo, .combined .rla, .combined .sre, .combined .rra]

/-- The conditions of each operation, read the other way round. -/
theorem mem_sets (op : Operation) :
    (.decimal ∈ op.sets ↔ op ∈ decimalOps) ∧ (.interruptDisable ∈ op.sets ↔ op ∈ interruptOps) ∧
      (.overflow ∈ op.sets ↔ op ∈ overflowOps) ∧ (.carry ∈ op.sets ↔ op ∈ carryOps) ∧
      (op.sets = [] ↔ op.keepsFlags = true) := by
  rcases op with op | op | op | op | op | op | op | _ <;> (try cases op) <;> decide

end Operation

/-! ### Registers -/

section Registers

variable {c : Condition}

theorem ReadOp.get_apply {op : ReadOp} (hc : c ∉ op.sets) (r : Registers) (v : UInt8) :
    (op.apply r v).flags.get c = r.flags.get c := by
  cases op <;> cases c <;> first | rfl | exact absurd (by decide) hc

theorem ModifyOp.get_apply {op : ModifyOp} (hc : c ∉ op.sets) (f : Flags) (v : UInt8) :
    (op.apply f v).2.get c = f.get c := by
  cases op <;> cases c <;> first | rfl | exact absurd (by decide) hc

theorem RegisterOp.get_apply {op : RegisterOp} (hc : c ∉ op.sets) (r : Registers) :
    (op.apply r).flags.get c = r.flags.get c := by
  cases op <;> cases c <;> first | rfl | exact absurd (by decide) hc

theorem ReadOp.moves_apply (op : ReadOp) (r : Registers) (v : UInt8) :
    (op.apply r v).sp = r.sp ∧ (op.apply r v).pc = r.pc := by
  cases op <;> exact ⟨rfl, rfl⟩

theorem RegisterOp.moves_apply (op : RegisterOp) (r : Registers) :
    (op.apply r).sp = (Operation.register op).stackPointer r ∧ (op.apply r).pc = r.pc := by
  cases op <;> exact ⟨rfl, rfl⟩

end Registers

namespace Cpu

variable {β : Type} [Bus β]

/-! ### Conditions left alone -/

theorem get_control (cpu : Cpu β) {op : ControlOp} {c : Condition} (hc : c ∉ op.sets)
    (operand : Operand) : (cpu.control op operand).flags.get c = cpu.flags.get c := by
  cases op with
  | pla => exact Flags.get_withZN hc cpu.flags _
  | plp | rti => cases c <;> exact absurd (by decide) hc
  | brk =>
    cases c with
    | interruptDisable => exact absurd (by decide) hc
    | _ => rfl
  | _ => rfl

theorem get_modify (cpu : Cpu β) {op : ModifyOp} {c : Condition} (hc : c ∉ op.sets)
    (place : Place) : (cpu.modify place op).2.flags.get c = cpu.flags.get c := by
  cases place <;> exact op.get_apply hc cpu.flags _

theorem get_execute (cpu : Cpu β) {op : Operation} {c : Condition} (hc : c ∉ op.sets)
    (operand : Operand) : (cpu.execute op operand).2.flags.get c = cpu.flags.get c := by
  cases op with
  | read op =>
    have hloaded := congrArg Registers.flags (cpu.registers_load operand.place)
    exact (op.get_apply hc _ _).trans (congrArg (Flags.get · c) hloaded)
  | write op =>
    have hstored := cpu.registers_store operand.place (op.value cpu.toRegisters)
    exact congrArg (fun r : Registers => r.flags.get c) hstored
  | modify op =>
    obtain ⟨hchange, hresult⟩ := not_or.1 (mt List.mem_append.2 hc)
    exact (Flags.get_withZN hresult _ _).trans (cpu.get_modify hchange operand.place)
  | combined op =>
    obtain ⟨hchange, huse⟩ := not_or.1 (mt List.mem_append.2 hc)
    exact (op.use.get_apply huse _ _).trans (cpu.get_modify hchange operand.place)
  | register op => exact op.get_apply hc cpu.toRegisters
  | branch op =>
    show (cpu.branch op operand).2.flags.get c = cpu.flags.get c
    unfold branch
    split <;> rfl
  | control op => exact cpu.get_control hc operand
  | nop => rfl

/-! ### Stack pointer and program counter -/

theorem moves_modify (cpu : Cpu β) (place : Place) (op : ModifyOp) :
    (cpu.modify place op).2.sp = cpu.sp ∧ (cpu.modify place op).2.pc = cpu.pc := by
  cases place <;> exact ⟨rfl, rfl⟩

theorem sp_control (cpu : Cpu β) (op : ControlOp) (operand : Operand) :
    (cpu.control op operand).sp = (Operation.control op).stackPointer cpu.toRegisters := by
  have hdown : ∀ sp : UInt8, sp - 1 - 1 = sp - 2 := fun sp => sub_sub sp 1 1
  have hup : ∀ sp : UInt8, sp + 1 + 1 = sp + 2 := fun sp => add_assoc sp 1 1
  cases op with
  | jsr => exact hdown cpu.sp
  | rts => exact hup cpu.sp
  | brk => exact (congrArg (· - 1) (hdown cpu.sp)).trans (sub_sub cpu.sp 2 1)
  | rti => exact (congrArg (· + 1) (hup cpu.sp)).trans (add_assoc cpu.sp 2 1)
  | _ => rfl

theorem moves_execute (cpu : Cpu β) (op : Operation) (operand : Operand) :
    (cpu.execute op operand).2.sp = op.stackPointer cpu.toRegisters ∧
      (op.jumps cpu.flags = false → (cpu.execute op operand).2.pc = cpu.pc) := by
  cases op with
  | read op =>
    have hloaded := cpu.registers_load operand.place
    obtain ⟨hsp, hpc⟩ := op.moves_apply (cpu.load operand.place).2.toRegisters
      (cpu.load operand.place).1
    exact ⟨hsp.trans (congrArg Registers.sp hloaded),
      fun _ => hpc.trans (congrArg Registers.pc hloaded)⟩
  | write op =>
    have hstored := cpu.registers_store operand.place (op.value cpu.toRegisters)
    exact ⟨congrArg Registers.sp hstored, fun _ => congrArg Registers.pc hstored⟩
  | modify op => exact (cpu.moves_modify operand.place op).imp_right fun hpc _ => hpc
  | combined op =>
    obtain ⟨hsp, hpc⟩ := cpu.moves_modify operand.place op.change
    obtain ⟨hsp', hpc'⟩ := op.use.moves_apply (cpu.modify operand.place op.change).2.toRegisters
      (cpu.modify operand.place op.change).1
    exact ⟨hsp'.trans hsp, fun _ => hpc'.trans hpc⟩
  | register op => exact (op.moves_apply cpu.toRegisters).imp_right fun hpc _ => hpc
  | branch op =>
    show (cpu.branch op operand).2.sp = cpu.sp ∧
      (op.taken cpu.flags = false → (cpu.branch op operand).2.pc = cpu.pc)
    unfold branch
    split
    case h_1 htaken _ => exact ⟨rfl, fun hnot => absurd (htaken.symm.trans hnot) (by decide)⟩
    case h_2 => exact ⟨rfl, fun _ => rfl⟩
  | control op =>
    refine ⟨cpu.sp_control op operand, fun hstays => ?_⟩
    cases op with
    | jmp | jsr | rts | rti | brk => cases hstays
    | _ => rfl
  | nop => exact ⟨rfl, fun _ => rfl⟩

/-! ### Instructions -/

/-- All that an instruction may do to the stack pointer, to the conditions that are not told by
results and to the program counter. -/
structure Footprint (i : Instruction) (before after : Registers) : Prop where
  sp : after.sp = i.operation.stackPointer before
  decimal : after.flags.decimal ≠ before.flags.decimal → i.operation ∈ Operation.decimalOps
  interruptDisable : after.flags.interruptDisable ≠ before.flags.interruptDisable →
    i.operation ∈ Operation.interruptOps
  overflow : after.flags.overflow ≠ before.flags.overflow → i.operation ∈ Operation.overflowOps
  carry : after.flags.carry ≠ before.flags.carry → i.operation ∈ Operation.carryOps
  flags : i.operation.keepsFlags = true → after.flags = before.flags
  nop : i.operation = .nop →
    after.a = before.a ∧ after.x = before.x ∧ after.y = before.y ∧ after.sp = before.sp
  pc : i.operation.jumps before.flags = false →
    after.pc = before.pc + 1 + i.mode.operandLength.toUInt16

theorem footprint_perform (f : Fetched) (cpu : Cpu β) :
    Footprint f.instruction cpu.toRegisters (cpu.perform f).2.toRegisters := by
  obtain ⟨opcode, i, operand⟩ := f
  let moved := cpu.onRegisters fun r => { r with pc := r.pc + (1 + i.mode.operandLength).toUInt16 }
  let done := (cpu.perform ⟨opcode, i, operand⟩).2
  have hkept : ∀ c, c ∉ i.operation.sets → done.flags.get c = cpu.flags.get c :=
    fun c hc => moved.get_execute hc operand
  have hsets : ∀ c, done.flags.get c ≠ cpu.flags.get c → c ∈ i.operation.sets :=
    fun c => not_imp_comm.1 (hkept c)
  obtain ⟨hsp, hpc⟩ := moved.moves_execute i.operation operand
  obtain ⟨hdecimal, hinterrupt, hoverflow, hcarry, hnone⟩ := i.operation.mem_sets
  constructor
  case sp => exact hsp
  case decimal => exact fun hne => hdecimal.1 (hsets .decimal hne)
  case interruptDisable => exact fun hne => hinterrupt.1 (hsets .interruptDisable hne)
  case overflow => exact fun hne => hoverflow.1 (hsets .overflow hne)
  case carry => exact fun hne => hcarry.1 (hsets .carry hne)
  case flags =>
    intro hkeeps
    refine Flags.ext_get fun c => hkept c ?_
    rw [hnone.2 hkeeps]
    exact List.not_mem_nil
  case nop =>
    intro hnop
    obtain ⟨operation, mode, documented⟩ := i
    obtain rfl : operation = .nop := hnop
    exact ⟨rfl, rfl, rfl, rfl⟩
  case pc =>
    intro hstays
    have hlength : (1 + i.mode.operandLength).toUInt16 = 1 + i.mode.operandLength.toUInt16 := by
      cases i.mode <;> rfl
    have hnext := hpc hstays
    rw [UInt16.add_assoc, ← hlength]
    exact hnext

/-- Every step that does not fail runs the instruction at the program counter and stays within the
footprint of that instruction, over any bus. -/
theorem step_footprint {cpu : Cpu β} {cycles : Nat} (h : cpu.step.1 = .ok cycles) :
    ∃ i, Instruction.decode (Bus.read cpu.bus cpu.pc).1 = some i ∧
      Footprint i cpu.toRegisters cpu.step.2.toRegisters := by
  obtain ⟨r, b⟩ := cpu
  unfold step at h ⊢
  cases hdecode : Instruction.decode (Bus.read b r.pc).1 with
  | none =>
    rw [fetch_error hdecode] at h
    cases h
  | some i =>
    obtain ⟨operand, bus, hfetch⟩ : ∃ operand bus,
        fetch ⟨r, b⟩ = (.ok ⟨(Bus.read b r.pc).1, i, operand⟩, ⟨r, bus⟩) :=
      ⟨_, _, fetch_ok hdecode⟩
    rw [hfetch]
    exact ⟨i, rfl, footprint_perform ⟨(Bus.read b r.pc).1, i, operand⟩ ⟨r, bus⟩⟩

/-- `BRK` where the stack pointer passes the end of its page. -/
theorem step_footprint_at_wrap :
    let after := (atWrap 0x0200).step.2
    (atWrap 0x0200).step.1 = .ok 7 ∧ after.sp = 0xFE ∧ after.flags.decimal = true ∧
      after.flags.overflow = false ∧ after.flags.carry = true := by
  intro after
  have hok : (atWrap 0x0200).step.1 = .ok 7 := by decide +kernel
  obtain ⟨i, hdecode, hfootprint⟩ := step_footprint hok
  have hbrk : Instruction.decode (Bus.read (atWrap 0x0200).bus (atWrap 0x0200).pc).1 =
      some ⟨.control .brk, .implied, true⟩ := by decide +kernel
  obtain rfl : i = ⟨.control .brk, .implied, true⟩ := Option.some.inj (hdecode.symm.trans hbrk)
  change Footprint _ _ after.toRegisters at hfootprint
  clear_value after
  have hsp : after.sp = 0x01 - 3 := hfootprint.sp
  have hdecimal : after.flags.decimal = true := not_ne_iff.1 (mt hfootprint.decimal (by decide))
  have hoverflow : after.flags.overflow = false :=
    not_ne_iff.1 (mt hfootprint.overflow (by decide))
  have hcarry : after.flags.carry = true := not_ne_iff.1 (mt hfootprint.carry (by decide))
  exact ⟨hok, hsp, hdecimal, hoverflow, hcarry⟩

end Cpu

end Nes
