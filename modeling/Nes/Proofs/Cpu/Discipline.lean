import Mathlib.Data.UInt
import Nes.Proofs.Cpu.Accesses

/-!
# The bus discipline of an instruction

A step reads the opcode, the operand's bytes and, where the mode has one, the pointer; what follows
is settled by the operation and the operand's address alone.  A step that finds no instruction
stops at the opcode.  This holds over every bus, whatever it answers, because the accesses are
those of the same step over a recorded bus, and recording changes nothing else.
-/

namespace Nes

/-- An access without the byte that went over the bus. -/
inductive Touch
  | read (addr : UInt16)
  | write (addr : UInt16)
deriving DecidableEq, Repr

def Access.touch : Access → Touch
  | .read addr _ => .read addr
  | .write addr _ => .write addr

/-! ### What is to be accessed -/

namespace Mode

/-- The addresses of the operand's bytes, the address space wrapping at its end. -/
def operandAddrs (mode : Mode) (pc : UInt16) : List UInt16 := [pc + 1, pc + 2].take mode.operandLength

/-- The addresses of the pointer's bytes, both in one page. -/
def pointerAddrs (mode : Mode) (x lo hi : UInt8) : List UInt16 :=
  match mode with
  | .indirectX => [Word.ofBytes (lo + x) 0, Word.ofBytes (lo + x + 1) 0]
  | .indirectY => [Word.ofBytes lo 0, Word.ofBytes (lo + 1) 0]
  | .indirect => [Word.ofBytes lo hi, Word.ofBytes (lo + 1) hi]
  | _ => []

/-- Where the operand is, or the branch goes, if that is in memory: `lo` and `hi` are the bytes
after the opcode, `plo` and `phi` those of the pointer. -/
def effective (mode : Mode) (r : Registers) (lo hi plo phi : UInt8) : Option UInt16 :=
  match mode with
  | .implied | .accumulator | .immediate => none
  | .zeroPage => some (Word.ofBytes lo 0)
  | .zeroPageX => some (Word.ofBytes (lo + r.x) 0)
  | .zeroPageY => some (Word.ofBytes (lo + r.y) 0)
  | .absolute => some (Word.ofBytes lo hi)
  | .absoluteX => some (Word.ofBytes lo hi + r.x.toUInt16)
  | .absoluteY => some (Word.ofBytes lo hi + r.y.toUInt16)
  | .indirect | .indirectX => some (Word.ofBytes plo phi)
  | .indirectY => some (Word.ofBytes plo phi + r.y.toUInt16)
  | .relative => some (r.pc + 2 + Word.displacement lo)

end Mode

def stackCell (sp : UInt8) : UInt16 := 0x0100 ||| sp.toUInt16

def ControlOp.touches (op : ControlOp) (sp : UInt8) : List Touch :=
  match op with
  | .pha | .php => [.write (stackCell sp)]
  | .pla | .plp => [.read (stackCell (sp + 1))]
  | .jmp => []
  | .jsr => [.write (stackCell sp), .write (stackCell (sp - 1))]
  | .rts => [.read (stackCell (sp + 1)), .read (stackCell (sp + 2))]
  | .rti => [.read (stackCell (sp + 1)), .read (stackCell (sp + 2)), .read (stackCell (sp + 3))]
  | .brk =>
    [.write (stackCell sp), .write (stackCell (sp - 1)), .write (stackCell (sp - 2)),
      .read 0xFFFE, .read 0xFFFF]

/-- The accesses of an operation to its operand, if that is in memory, and to the stack. -/
def Operation.touches (op : Operation) (addr? : Option UInt16) (sp : UInt8) : List Touch :=
  match op with
  | .read _ => addr?.toList.map .read
  | .write _ => addr?.toList.map .write
  | .modify _ | .combined _ => addr?.toList.flatMap fun addr => [.read addr, .write addr]
  | .control op => op.touches sp
  | .register _ | .branch _ | .nop => []

def reads (addrs : List UInt16) (bytes : List UInt8) : List Access :=
  List.zipWith .read addrs bytes

/-- The accesses of a step that starts with the registers `r`, and how it ends. -/
inductive Disciplined (r : Registers) : Except UnknownOpcode Nat → List Access → Prop
  | fault {opcode : UInt8} (hdecode : Instruction.decode opcode = none) :
    Disciplined r (.error ⟨r.pc, opcode⟩) [.read r.pc opcode]
  | ran {opcode lo hi plo phi : UInt8} {i : Instruction} {data : List Access} (cycles : Nat)
    (hdecode : Instruction.decode opcode = some i)
    (hdata : data.map Access.touch =
      i.operation.touches (i.mode.effective r lo hi plo phi) r.sp) :
    Disciplined r (.ok cycles) ([.read r.pc opcode] ++ reads (i.mode.operandAddrs r.pc) [lo, hi] ++
      reads (i.mode.pointerAddrs r.x lo hi) [plo, phi] ++ data)

/-! ### Accesses between two states of a record -/

namespace Recorded

variable {β : Type}

/-- What was accessed from `first` to `second`. -/
def Made (first second : Recorded β) (touches : List Touch) : Prop :=
  ∃ data : List Access, second.accesses.toList = first.accesses.toList ++ data ∧
    data.map Access.touch = touches

theorem Made.nothing (bus : Recorded β) : Made bus bus [] := ⟨[], by simp, rfl⟩

theorem Made.trans {first second third : Recorded β} {some more : List Touch}
    (h : Made first second some) (h' : Made second third more) :
    Made first third (some ++ more) := by
  obtain ⟨data, hsecond, rfl⟩ := h
  obtain ⟨data', hthird, rfl⟩ := h'
  refine ⟨data ++ data', ?_, List.map_append⟩
  rw [hthird, hsecond, List.append_assoc]

variable [Bus β]

theorem Made.read (bus : Recorded β) (addr : UInt16) :
    Made bus (Bus.read bus addr).2 [.read addr] := by
  refine ⟨[.read addr (Bus.read bus.device addr).1], ?_, rfl⟩
  rw [accesses_read, Array.toList_push]

theorem Made.write (bus : Recorded β) (addr : UInt16) (v : UInt8) :
    Made bus (Bus.write bus addr v) [.write addr] := by
  refine ⟨[.write addr v], ?_, rfl⟩
  rw [accesses_write, Array.toList_push]

end Recorded

/-! ### The parts of a step -/

open Recorded

variable {β : Type} [Bus β]

theorem toUInt16_eq (b : UInt8) : b.toUInt16 = Word.ofBytes b 0 := by
  simp [Word.ofBytes]

theorem accesses_readPair (bus : Recorded β) (low high : UInt16) : ∃ lo hi,
    (Bus.readPair bus low high).1 = Word.ofBytes lo hi ∧
      (Bus.readPair bus low high).2.accesses.toList =
        bus.accesses.toList ++ reads [low, high] [lo, hi] := by
  refine ⟨(Bus.read bus low).1, (Bus.read (Bus.read bus low).2 high).1, rfl, ?_⟩
  show (Bus.read (Bus.read bus low).2 high).2.accesses.toList = _
  rw [accesses_read, accesses_read, Array.toList_push, Array.toList_push, List.append_assoc]
  rfl

namespace Operand

theorem accesses_ofByte (r : Registers) (bus : Recorded β) (mode : Mode) (lo : UInt8)
    (hlength : mode.operandLength = 1) : ∃ plo phi,
      (ofByte bus mode (r.pc + 2) r.x r.y lo).2.accesses.toList =
        bus.accesses.toList ++ reads (mode.pointerAddrs r.x lo 0) [plo, phi] ∧
      (ofByte bus mode (r.pc + 2) r.x r.y lo).1.addr? = mode.effective r lo 0 plo phi := by
  have hnone : bus.accesses.toList = bus.accesses.toList ++ [] := by simp
  cases mode with
  | immediate => exact ⟨0, 0, hnone, rfl⟩
  | zeroPage => exact ⟨0, 0, hnone, congrArg some (toUInt16_eq lo)⟩
  | zeroPageX => exact ⟨0, 0, hnone, congrArg some (toUInt16_eq (lo + r.x))⟩
  | zeroPageY => exact ⟨0, 0, hnone, congrArg some (toUInt16_eq (lo + r.y))⟩
  | relative => exact ⟨0, 0, hnone, rfl⟩
  | indirectX =>
    obtain ⟨plo, phi, haddr, hread⟩ :=
      accesses_readPair bus (lo + r.x).toUInt16 (lo + r.x + 1).toUInt16
    have hpointer : Mode.indirectX.pointerAddrs r.x lo 0 =
        [(lo + r.x).toUInt16, (lo + r.x + 1).toUInt16] := by
      rw [toUInt16_eq, toUInt16_eq]
      rfl
    rw [hpointer]
    exact ⟨plo, phi, hread, congrArg some haddr⟩
  | indirectY =>
    obtain ⟨plo, phi, hbase, hread⟩ := accesses_readPair bus lo.toUInt16 (lo + 1).toUInt16
    have hpointer : Mode.indirectY.pointerAddrs r.x lo 0 =
        [lo.toUInt16, (lo + 1).toUInt16] := by
      rw [toUInt16_eq, toUInt16_eq]
      rfl
    rw [hpointer]
    exact ⟨plo, phi, hread, congrArg (fun base => some (base + r.y.toUInt16)) hbase⟩
  | _ => cases hlength

theorem accesses_ofBytes (r : Registers) (bus : Recorded β) (mode : Mode) (lo hi : UInt8)
    (hlength : mode.operandLength = 2) : ∃ plo phi,
      (ofBytes bus mode r.x r.y lo hi).2.accesses.toList =
        bus.accesses.toList ++ reads (mode.pointerAddrs r.x lo hi) [plo, phi] ∧
      (ofBytes bus mode r.x r.y lo hi).1.addr? = mode.effective r lo hi plo phi := by
  have hnone : bus.accesses.toList = bus.accesses.toList ++ [] := by simp
  cases mode with
  | absolute => exact ⟨0, 0, hnone, rfl⟩
  | absoluteX => exact ⟨0, 0, hnone, rfl⟩
  | absoluteY => exact ⟨0, 0, hnone, rfl⟩
  | indirect =>
    obtain ⟨plo, phi, htarget, hread⟩ :=
      accesses_readPair bus (Word.ofBytes lo hi) (Word.nextInPage (Word.ofBytes lo hi))
    have hpointer : Mode.indirect.pointerAddrs r.x lo hi =
        [Word.ofBytes lo hi, Word.nextInPage (Word.ofBytes lo hi)] := by
      rw [Word.nextInPage_ofBytes]
      rfl
    rw [hpointer]
    exact ⟨plo, phi, hread, congrArg some htarget⟩
  | _ => cases hlength

/-- Resolving reads the operand's bytes and the pointer, and settles the operand's address. -/
theorem accesses_resolve (r : Registers) (bus : Recorded β) (mode : Mode) : ∃ lo hi plo phi,
    (resolve bus (r.pc + 1) r.x r.y mode).2.accesses.toList = bus.accesses.toList ++
      reads (mode.operandAddrs r.pc) [lo, hi] ++ reads (mode.pointerAddrs r.x lo hi) [plo, phi] ∧
    (resolve bus (r.pc + 1) r.x r.y mode).1.addr? = mode.effective r lo hi plo phi := by
  have hnext : r.pc + 1 + 1 = r.pc + 2 := UInt16.add_assoc _ _ _
  unfold resolve Mode.operandAddrs
  rcases mode.operandLength_cases with hlength | hlength | hlength
  · have hnone : bus.accesses.toList = bus.accesses.toList ++ [] ++ [] := by simp
    rw [hlength]
    cases mode with
    | implied => exact ⟨0, 0, 0, 0, hnone, rfl⟩
    | accumulator => exact ⟨0, 0, 0, 0, hnone, rfl⟩
    | _ => cases hlength
  · obtain ⟨plo, phi, hread, haddr⟩ :=
      accesses_ofByte r (Bus.read bus (r.pc + 1)).2 mode (Bus.read bus (r.pc + 1)).1 hlength
    rw [accesses_read, Array.toList_push] at hread
    rw [hlength, hnext]
    exact ⟨_, 0, plo, phi, hread, haddr⟩
  · obtain ⟨plo, phi, hread, haddr⟩ := accesses_ofBytes r
      (Bus.read (Bus.read bus (r.pc + 1)).2 (r.pc + 2)).2 mode (Bus.read bus (r.pc + 1)).1
      (Bus.read (Bus.read bus (r.pc + 1)).2 (r.pc + 2)).1 hlength
    rw [accesses_read, Array.toList_push, accesses_read, Array.toList_push,
      List.append_assoc bus.accesses.toList] at hread
    rw [hlength, hnext]
    exact ⟨_, _, plo, phi, hread, haddr⟩

end Operand

namespace Cpu

theorem stackAddr_eq (sp : UInt8) : stackAddr sp = stackCell sp := by
  have hpage : (0x0100 : UInt16).toNat = 2 ^ 8 * 1 := rfl
  apply UInt16.toNat_inj.1
  unfold stackAddr stackCell
  rw [UInt16.toNat_or, UInt16.toNat_add, UInt8.toNat_toUInt16, hpage,
    ← Nat.two_pow_add_eq_or_of_lt sp.toNat_lt]
  have := sp.toNat_lt
  omega

variable (cpu : Cpu (Recorded β))

theorem made_push (v : UInt8) : Made cpu.bus (cpu.push v).bus [.write (stackCell cpu.sp)] := by
  rw [← stackAddr_eq]
  exact .write cpu.bus (stackAddr cpu.sp) v

theorem made_pop : Made cpu.bus cpu.pop.2.bus [.read (stackCell (cpu.sp + 1))] := by
  rw [← stackAddr_eq]
  exact .read cpu.bus (stackAddr (cpu.sp + 1))

theorem made_pushWord (w : UInt16) : Made cpu.bus (cpu.pushWord w).bus
    [.write (stackCell cpu.sp), .write (stackCell (cpu.sp - 1))] :=
  (cpu.made_push (Word.hi w)).trans ((cpu.push (Word.hi w)).made_push (Word.lo w))

theorem made_popWord : Made cpu.bus cpu.popWord.2.bus
    [.read (stackCell (cpu.sp + 1)), .read (stackCell (cpu.sp + 2))] := by
  have hsp : cpu.sp + 1 + 1 = cpu.sp + 2 := UInt8.add_assoc _ _ _
  rw [← hsp]
  exact cpu.made_pop.trans cpu.pop.2.made_pop

theorem made_readWord (addr : UInt16) : Made cpu.bus (cpu.readWord addr).2.bus
    [.read addr, .read (addr + 1)] :=
  (Made.read cpu.bus addr).trans (Made.read _ (addr + 1))

theorem made_enter (returnTo : UInt16) (software : Bool) (vector : UInt16) :
    Made cpu.bus (cpu.enter returnTo software vector).bus
      [.write (stackCell cpu.sp), .write (stackCell (cpu.sp - 1)),
        .write (stackCell (cpu.sp - 2)), .read vector, .read (vector + 1)] := by
  have hsp : cpu.sp - 1 - 1 = cpu.sp - 2 := sub_sub cpu.sp 1 1
  have hstatus := (cpu.pushWord returnTo).made_push (cpu.flags.pushed software)
  have hvector := ((cpu.pushWord returnTo).push (cpu.flags.pushed software)).made_readWord vector
  rw [← hsp]
  exact ((cpu.made_pushWord returnTo).trans hstatus).trans hvector

theorem made_control (op : ControlOp) (operand : Operand) :
    Made cpu.bus (cpu.control op operand).bus (op.touches cpu.sp) := by
  cases op with
  | pha => exact cpu.made_push cpu.a
  | php => exact cpu.made_push (cpu.flags.pushed true)
  | pla => exact cpu.made_pop
  | plp => exact cpu.made_pop
  | jmp => exact .nothing cpu.bus
  | jsr => exact cpu.made_pushWord (cpu.pc - 1)
  | rts => exact cpu.made_popWord
  | rti =>
    have hword := cpu.pop.2.made_popWord
    have hsecond : cpu.pop.2.sp + 1 = cpu.sp + 2 := UInt8.add_assoc cpu.sp 1 1
    have hthird : cpu.pop.2.sp + 2 = cpu.sp + 3 := UInt8.add_assoc cpu.sp 1 2
    rw [hsecond, hthird] at hword
    exact cpu.made_pop.trans hword
  | brk => exact cpu.made_enter (cpu.pc + 1) true irqVector

theorem made_load (operand : Operand) : Made cpu.bus (cpu.load operand.place).2.bus
    (operand.addr?.toList.map .read) := by
  obtain ⟨mode, lo, hi, place, base, crossed⟩ := operand
  cases place with
  | memory addr => exact .read cpu.bus addr
  | _ => exact .nothing cpu.bus

theorem made_store (operand : Operand) (v : UInt8) : Made cpu.bus (cpu.store operand.place v).bus
    (operand.addr?.toList.map .write) := by
  obtain ⟨mode, lo, hi, place, base, crossed⟩ := operand
  cases place with
  | memory addr => exact .write cpu.bus addr v
  | _ => exact .nothing cpu.bus

theorem made_modify (operand : Operand) (op : ModifyOp) :
    Made cpu.bus (cpu.modify operand.place op).2.bus
      (operand.addr?.toList.flatMap fun addr => [.read addr, .write addr]) := by
  obtain ⟨mode, lo, hi, place, base, crossed⟩ := operand
  cases place with
  | memory addr => exact (Made.read cpu.bus addr).trans (.write _ addr _)
  | _ => exact .nothing cpu.bus

theorem made_execute (op : Operation) (operand : Operand) :
    Made cpu.bus (cpu.execute op operand).2.bus (op.touches operand.addr? cpu.sp) := by
  cases op with
  | read op => exact cpu.made_load operand
  | write op => exact cpu.made_store operand _
  | modify op => exact cpu.made_modify operand op
  | combined op => exact cpu.made_modify operand op.change
  | register op => exact .nothing cpu.bus
  | branch op =>
    have hbus : (cpu.branch op operand).2.bus = cpu.bus := by
      unfold branch
      split <;> rfl
    show Made cpu.bus (cpu.branch op operand).2.bus []
    rw [hbus]
    exact .nothing cpu.bus
  | control op => exact cpu.made_control op operand
  | nop => exact .nothing cpu.bus

/-! ### Whole steps -/

/-- The processor with an empty record laid before its bus. -/
def onRecord (cpu : Cpu β) : Cpu (Recorded β) := ⟨cpu.toRegisters, .start cpu.bus⟩

theorem device_simulation : Bus.Simulation fun (bus : Recorded β) (device : β) =>
    bus.device = device where
  read := by
    rintro bus device addr rfl
    exact ⟨rfl, rfl⟩
  write := by
    rintro bus device addr v rfl
    rfl

theorem disciplined_onRecord (cpu : Cpu β) :
    Disciplined cpu.toRegisters cpu.onRecord.step.1 cpu.onRecord.step.2.bus.accesses.toList := by
  obtain ⟨r, bus⟩ := cpu
  let started := (Bus.read (start bus) r.pc).2
  have hopcode : started.accesses.toList = [.read r.pc (Bus.read bus r.pc).1] := rfl
  unfold onRecord step
  dsimp only
  cases hdecode : Instruction.decode (Bus.read bus r.pc).1 with
  | none =>
    rw [fetch_error (b := start bus) hdecode]
    exact .fault hdecode
  | some i =>
    obtain ⟨lo, hi, plo, phi, hoperand, haddr⟩ := Operand.accesses_resolve r started i.mode
    let fetched := Operand.resolve started (r.pc + 1) r.x r.y i.mode
    -- the operation meets the program counter moved on, but the stack pointer of the start
    let length := (1 + i.mode.operandLength).toUInt16
    obtain ⟨data, hdone, htouches⟩ :=
      made_execute ⟨{ r with pc := r.pc + length }, fetched.2⟩ i.operation fetched.1
    rw [haddr] at htouches
    rw [hoperand, hopcode] at hdone
    rw [fetch_ok (b := start bus) hdecode]
    have hran := Disciplined.ran (perform ⟨(Bus.read bus r.pc).1, i, fetched.1⟩ ⟨r, fetched.2⟩).1
      hdecode htouches
    rw [← hdone] at hran
    exact hran

/-- A step over any bus makes the accesses that its opcode, its operand's bytes and its pointer
settle, in their order, and no other. -/
theorem step_accesses_disciplined (cpu : Cpu β) :
    cpu.onRecord.step.1 = cpu.step.1 ∧
      cpu.onRecord.step.2.toRegisters = cpu.step.2.toRegisters ∧
      cpu.onRecord.step.2.bus.device = cpu.step.2.bus ∧
      Disciplined cpu.toRegisters cpu.step.1 cpu.onRecord.step.2.bus.accesses.toList := by
  have hstart : Related (fun (bus : Recorded β) device => bus.device = device) cpu.onRecord cpu :=
    .mk cpu.toRegisters rfl
  obtain ⟨hresult, hstate⟩ := hstart.step device_simulation
  have hdisciplined := cpu.disciplined_onRecord
  rw [hresult] at hdisciplined
  exact ⟨hresult, hstate.registers, hstate.bus, hdisciplined⟩

end Cpu

end Nes
