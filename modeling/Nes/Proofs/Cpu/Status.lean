import Nes.Proofs.Byte
import Nes.Proofs.Cpu.Cycles
import Nes.Proofs.Cpu.Discipline

/-!
# The status byte

The processor keeps no break condition of its own: bit 4 of the status byte is clear from a reset
on, whatever is pulled meanwhile, and bit 5 is set.  Copies of the byte are pushed in four places.
Instructions set bit 4 of theirs and interrupts clear it, and in all else a copy is the byte as it
stands.  That there is no fifth place is told by an account of all that is written.
-/

namespace Nes

/-! ### Copies -/

namespace Flags

/-- A pushed copy of the conditions: bit 4 tells instructions from interrupts, bit 5 is set. -/
def IsCopy (f : Flags) (software : Bool) (copy : UInt8) : Prop :=
  ofByte copy = { f with breakCommand := software } ∧ testBits copy 0x20 = true

theorem testBits_pushed (f : Flags) (software : Bool) :
    testBits (f.pushed software) 0x20 = true := by
  rcases f with ⟨_ | _, _ | _, _ | _, _ | _, _ | _, _ | _, _ | _⟩ <;> cases software <;> decide

theorem isCopy_pushed (f : Flags) (software : Bool) : f.IsCopy software (f.pushed software) :=
  ⟨f.ofByte_pushed software, f.testBits_pushed software⟩

theorem toByte_bits (f : Flags) (h : f.breakCommand = false) : f.toByte &&& 0x30 = 0x20 := by
  obtain ⟨carry, zero, interruptDisable, decimal, breakCommand, overflow, negative⟩ := f
  obtain rfl : breakCommand = false := h
  cases carry <;> cases zero <;> cases interruptDisable <;> cases decimal <;> cases overflow <;>
    cases negative <;> decide

theorem toByte_pulled (b : UInt8) : (pulled b).toByte = b &&& 0xEF ||| 0x20 := by
  revert b
  apply forall_byte
  decide +kernel

example : (pulled 0xFF).toByte = 0xEF := by decide

end Flags

/-! ### The break condition -/

section Registers

theorem ReadOp.breakCommand_apply (op : ReadOp) (r : Registers) (v : UInt8) :
    (op.apply r v).flags.breakCommand = r.flags.breakCommand := by
  cases op <;> rfl

theorem ModifyOp.breakCommand_apply (op : ModifyOp) (f : Flags) (v : UInt8) :
    (op.apply f v).2.breakCommand = f.breakCommand := by
  cases op <;> rfl

theorem RegisterOp.breakCommand_apply (op : RegisterOp) (r : Registers) :
    (op.apply r).flags.breakCommand = r.flags.breakCommand := by
  cases op <;> rfl

end Registers

namespace Cpu

variable {β : Type} [Bus β]

theorem registers_load (cpu : Cpu β) (place : Place) :
    (cpu.load place).2.toRegisters = cpu.toRegisters := by
  cases place <;> rfl

theorem registers_store (cpu : Cpu β) (place : Place) (v : UInt8) :
    (cpu.store place v).toRegisters = cpu.toRegisters := by
  cases place <;> rfl

theorem breakCommand_modify (cpu : Cpu β) (place : Place) (op : ModifyOp) :
    (cpu.modify place op).2.flags.breakCommand = cpu.flags.breakCommand := by
  cases place <;> exact op.breakCommand_apply cpu.flags _

theorem breakCommand_control {cpu : Cpu β} (op : ControlOp) (operand : Operand)
    (h : cpu.flags.breakCommand = false) : (cpu.control op operand).flags.breakCommand = false := by
  cases op with
  | plp => rfl
  | rti => rfl
  | _ => exact h

theorem breakCommand_execute {cpu : Cpu β} (op : Operation) (operand : Operand)
    (h : cpu.flags.breakCommand = false) :
    (cpu.execute op operand).2.flags.breakCommand = false := by
  cases op with
  | read op =>
    show (op.apply (cpu.load operand.place).2.toRegisters _).flags.breakCommand = false
    rw [ReadOp.breakCommand_apply, registers_load, h]
  | write op =>
    show (cpu.store operand.place _).flags.breakCommand = false
    rw [registers_store, h]
  | modify op => exact (cpu.breakCommand_modify operand.place op).trans h
  | combined op =>
    show (op.use.apply (cpu.modify operand.place op.change).2.toRegisters _).flags.breakCommand = _
    rw [ReadOp.breakCommand_apply, breakCommand_modify, h]
  | register op => exact (op.breakCommand_apply cpu.toRegisters).trans h
  | branch op =>
    show (cpu.branch op operand).2.flags.breakCommand = false
    unfold branch
    split <;> exact h
  | control op => exact breakCommand_control op operand h
  | nop => exact h

theorem breakCommand_step {cpu : Cpu β} (h : cpu.flags.breakCommand = false) :
    cpu.step.2.flags.breakCommand = false := by
  have hfetched := cpu.registers_fetch
  unfold step
  rcases hfetch : cpu.fetch with ⟨result, next⟩
  rw [hfetch] at hfetched
  have hnext : next.flags.breakCommand = false := by
    rw [← h]
    exact congrArg (fun r : Registers => r.flags.breakCommand) hfetched
  cases result with
  | error e => exact hnext
  | ok f => exact breakCommand_execute f.instruction.operation f.operand hnext

/-! ### Runs -/

inductive Event
  | step
  | nmi
  | irq
  | reset
  | resetTo (pc : UInt16)
deriving DecidableEq, Repr

def happen (cpu : Cpu β) : Event → Cpu β
  | .step => cpu.step.2
  | .nmi => cpu.nmi
  | .irq => cpu.irq.2
  | .reset => cpu.reset.2
  | .resetTo pc => cpu.resetTo pc

def history (cpu : Cpu β) (events : List Event) : Cpu β := events.foldl happen cpu

/-- A processor just reset, to an address or through its vector. -/
def restart (cpu : Cpu β) (pc? : Option UInt16) : Cpu β := cpu.happen (pc?.elim .reset .resetTo)

theorem breakCommand_happen {cpu : Cpu β} (event : Event) (h : cpu.flags.breakCommand = false) :
    (cpu.happen event).flags.breakCommand = false := by
  cases event with
  | step => exact breakCommand_step h
  | nmi => exact h
  | irq =>
    show cpu.irq.2.flags.breakCommand = false
    unfold irq
    split <;> exact h
  | reset => rfl
  | resetTo pc => rfl

theorem breakCommand_history {cpu : Cpu β} (events : List Event)
    (h : cpu.flags.breakCommand = false) : (cpu.history events).flags.breakCommand = false := by
  induction events generalizing cpu with
  | nil => exact h
  | cons event events ih => exact ih (breakCommand_happen event h)

theorem breakCommand_restart (cpu : Cpu β) (pc? : Option UInt16) :
    (cpu.restart pc?).flags.breakCommand = false := by
  cases pc? <;> rfl

end Cpu

/-! ### What is written -/

def Access.written? : Access → Option (UInt16 × UInt8)
  | .read _ _ => none
  | .write addr v => some (addr, v)

namespace Recorded

variable {β : Type} [Bus β] (bus : Recorded β)

/-- The bytes written so far and where they went, in order. -/
def writes {β : Type} (bus : Recorded β) : List (UInt16 × UInt8) :=
  bus.accesses.toList.filterMap Access.written?

theorem writes_read (addr : UInt16) : (Bus.read bus addr).2.writes = bus.writes := by
  unfold writes
  rw [accesses_read, Array.toList_push, List.filterMap_append]
  exact List.append_nil _

theorem writes_write (addr : UInt16) (v : UInt8) :
    (Bus.write bus addr v).writes = bus.writes ++ [(addr, v)] := by
  unfold writes
  rw [accesses_write, Array.toList_push, List.filterMap_append]
  rfl

end Recorded

namespace Cpu

section Writes

variable {β : Type} [Bus β] (cpu : Cpu (Recorded β))

theorem writes_push (v : UInt8) :
    (cpu.push v).bus.writes = cpu.bus.writes ++ [(stackCell cpu.sp, v)] := by
  rw [← stackAddr_eq]
  exact Recorded.writes_write cpu.bus (stackAddr cpu.sp) v

theorem writes_pushWord (w : UInt16) : (cpu.pushWord w).bus.writes =
    cpu.bus.writes ++ [(stackCell cpu.sp, Word.hi w), (stackCell (cpu.sp - 1), Word.lo w)] := by
  unfold pushWord
  rw [writes_push, writes_push, List.append_assoc]
  rfl

theorem writes_pop : cpu.pop.2.bus.writes = cpu.bus.writes := Recorded.writes_read cpu.bus _

theorem writes_popWord : cpu.popWord.2.bus.writes = cpu.bus.writes :=
  (writes_pop cpu.pop.2).trans cpu.writes_pop

theorem writes_readWord (addr : UInt16) : (cpu.readWord addr).2.bus.writes = cpu.bus.writes :=
  (Recorded.writes_read _ _).trans (Recorded.writes_read cpu.bus addr)

/-- The way back and a copy of the status, as they lie below the stack pointer. -/
def frame (sp : UInt8) (returnTo : UInt16) (copy : UInt8) : List (UInt16 × UInt8) :=
  [(stackCell sp, Word.hi returnTo), (stackCell (sp - 1), Word.lo returnTo),
    (stackCell (sp - 2), copy)]

theorem writes_enter (returnTo : UInt16) (software : Bool) (vector : UInt16) :
    (cpu.enter returnTo software vector).bus.writes =
      cpu.bus.writes ++ frame cpu.sp returnTo (cpu.flags.pushed software) := by
  have hsp : cpu.sp - 1 - 1 = cpu.sp - 2 := sub_sub cpu.sp 1 1
  have hpushed := (cpu.pushWord returnTo).writes_push (cpu.flags.pushed software)
  rw [writes_pushWord, List.append_assoc] at hpushed
  unfold frame
  rw [← hsp]
  exact (writes_readWord _ vector).trans hpushed

theorem writes_load (place : Place) : (cpu.load place).2.bus.writes = cpu.bus.writes := by
  cases place with
  | memory addr => exact Recorded.writes_read cpu.bus addr
  | _ => rfl

/-- A byte that goes to an operand, if that is in memory. -/
def toOperand (addr? : Option UInt16) (v : UInt8) : List (UInt16 × UInt8) :=
  addr?.toList.map fun addr => (addr, v)

theorem writes_store (operand : Operand) (v : UInt8) :
    (cpu.store operand.place v).bus.writes = cpu.bus.writes ++ toOperand operand.addr? v := by
  obtain ⟨mode, lo, hi, place, base, crossed⟩ := operand
  cases place with
  | memory addr => exact Recorded.writes_write cpu.bus addr v
  | _ => exact (List.append_nil _).symm

theorem writes_modify (operand : Operand) (op : ModifyOp) : ∃ v,
    (cpu.modify operand.place op).2.bus.writes = cpu.bus.writes ++ toOperand operand.addr? v := by
  obtain ⟨mode, lo, hi, place, base, crossed⟩ := operand
  cases place with
  | memory addr =>
    refine ⟨(op.apply cpu.flags (cpu.read addr).1).1, ?_⟩
    have hwrite := Recorded.writes_write (cpu.read addr).2.bus addr
      (op.apply cpu.flags (cpu.read addr).1).1
    have hread : (cpu.read addr).2.bus.writes = cpu.bus.writes :=
      Recorded.writes_read cpu.bus addr
    rw [hread] at hwrite
    exact hwrite
  | _ => exact ⟨0, (List.append_nil _).symm⟩

theorem writes_fetch : cpu.fetch.2.bus.writes = cpu.bus.writes := by
  obtain ⟨r, bus⟩ := cpu
  have hkept : ∀ (b : Recorded β) addr, b.writes = bus.writes →
      (Bus.read b addr).2.writes = bus.writes :=
    fun b addr h => (Recorded.writes_read b addr).trans h
  cases hdecode : Instruction.decode (Bus.read bus r.pc).1 with
  | none =>
    rw [fetch_error hdecode]
    exact Recorded.writes_read bus r.pc
  | some i =>
    rw [fetch_ok hdecode]
    exact Operand.resolve_keeps hkept _ _ _ _ (Recorded.writes_read bus r.pc)

end Writes

/-! ### Who writes what -/

end Cpu

/-- The mode of an operation on the stack; a jump alone has two. -/
def ControlOp.mode? : ControlOp → Option Mode
  | .jmp => none
  | .jsr => some .absolute
  | _ => some .implied

theorem Instruction.mode_of_control {b : UInt8} {i : Instruction} {op : ControlOp} {mode : Mode}
    (h : decode b = some i) (hop : i.operation = .control op) (hmode : op.mode? = some mode) :
    i.mode = mode := by
  have hall : ∀ b, (decode b).all (fun i =>
      match i.operation with
      | .control op => op.mode?.all (i.mode == ·)
      | _ => true) = true := by
    apply forall_byte
    decide +kernel
  have hb := hall b
  rw [h, Option.all_some, hop] at hb
  dsimp only at hb
  rw [hmode] at hb
  exact beq_iff_eq.1 hb

namespace Operation

def stores : Operation → Bool
  | write _ | modify _ | combined _ => true
  | _ => false

def pushes : Operation → Bool
  | control .pha | control .php | control .jsr | control .brk => true
  | _ => false

end Operation

namespace Cpu

theorem related_onRecord {β : Type} (cpu : Cpu β) :
    Related (fun (bus : Recorded β) device => bus.device = device) cpu.onRecord cpu :=
  .mk cpu.toRegisters rfl

variable {β : Type} [Bus β]

/-- The operation that the next step runs. -/
def operation? (cpu : Cpu β) : Option Operation :=
  cpu.fetch.1.toOption.map fun f => f.instruction.operation

def target? (cpu : Cpu β) : Option UInt16 := cpu.fetch.1.toOption.bind fun f => f.operand.addr?

/-- What an event writes, and on whose account. -/
inductive Writes (cpu : Cpu β) : Event → List (UInt16 × UInt8) → Prop
  | php {copy : UInt8} (runs : cpu.operation? = some (.control .php))
    (isCopy : cpu.flags.IsCopy true copy) : Writes cpu .step [(stackCell cpu.sp, copy)]
  | brk {copy : UInt8} (runs : cpu.operation? = some (.control .brk))
    (isCopy : cpu.flags.IsCopy true copy) : Writes cpu .step (frame cpu.sp (cpu.pc + 2) copy)
  | nmi {copy : UInt8} (isCopy : cpu.flags.IsCopy false copy) :
    Writes cpu .nmi (frame cpu.sp cpu.pc copy)
  | irq {copy : UInt8} (enabled : cpu.flags.interruptDisable = false)
    (isCopy : cpu.flags.IsCopy false copy) : Writes cpu .irq (frame cpu.sp cpu.pc copy)
  | masked (disabled : cpu.flags.interruptDisable = true) : Writes cpu .irq []
  | pha (runs : cpu.operation? = some (.control .pha)) :
    Writes cpu .step [(stackCell cpu.sp, cpu.a)]
  | jsr (runs : cpu.operation? = some (.control .jsr)) :
    Writes cpu .step [(stackCell cpu.sp, Word.hi (cpu.pc + 2)),
      (stackCell (cpu.sp - 1), Word.lo (cpu.pc + 2))]
  | stored {op : Operation} (runs : cpu.operation? = some op) (stores : op.stores = true)
    (v : UInt8) : Writes cpu .step (toOperand cpu.target? v)
  | silent {op : Operation} (runs : cpu.operation? = some op) (stores : op.stores = false)
    (pushes : op.pushes = false) : Writes cpu .step []
  | fault (runs : cpu.operation? = none) : Writes cpu .step []
  | reset : Writes cpu .reset []
  | resetTo (pc : UInt16) : Writes cpu (.resetTo pc) []

theorem decode_of_fetch {cpu : Cpu β} {f : Fetched} (h : cpu.fetch.1 = .ok f) :
    Instruction.decode f.opcode = some f.instruction := by
  obtain ⟨r, bus⟩ := cpu
  cases hdecode : Instruction.decode (Bus.read bus r.pc).1 with
  | none =>
    rw [fetch_error hdecode] at h
    cases h
  | some i =>
    rw [fetch_ok hdecode] at h
    cases h
    exact hdecode

theorem operation?_of_fetch {cpu : Cpu β} {f : Fetched} (h : cpu.fetch.1 = .ok f) :
    cpu.operation? = some f.instruction.operation := by
  rw [operation?, h]
  rfl

theorem target?_of_fetch {cpu : Cpu β} {f : Fetched} (h : cpu.fetch.1 = .ok f) :
    cpu.target? = f.operand.addr? := by
  rw [target?, h]
  rfl

/-- The writes of an operation, which meets the program counter moved past its instruction. -/
theorem writes_control (r : Registers) (bus : Recorded β) (op : ControlOp) (operand : Operand) :
    (control op operand ⟨r, bus⟩).bus.writes = bus.writes ++
      match op with
      | .pha => [(stackCell r.sp, r.a)]
      | .php => [(stackCell r.sp, r.flags.pushed true)]
      | .jsr => [(stackCell r.sp, Word.hi (r.pc - 1)), (stackCell (r.sp - 1), Word.lo (r.pc - 1))]
      | .brk => frame r.sp (r.pc + 1) (r.flags.pushed true)
      | _ => [] := by
  cases op with
  | pha => exact writes_push ⟨r, bus⟩ r.a
  | php => exact writes_push ⟨r, bus⟩ (r.flags.pushed true)
  | jsr => exact writes_pushWord ⟨r, bus⟩ (r.pc - 1)
  | brk => exact writes_enter ⟨r, bus⟩ (r.pc + 1) true irqVector
  | jmp => exact (List.append_nil _).symm
  | pla => exact (writes_pop ⟨r, bus⟩).trans (List.append_nil _).symm
  | plp => exact (writes_pop ⟨r, bus⟩).trans (List.append_nil _).symm
  | rts => exact (writes_popWord ⟨r, bus⟩).trans (List.append_nil _).symm
  | rti =>
    have hpopped := (writes_popWord (pop ⟨r, bus⟩).2).trans (writes_pop ⟨r, bus⟩)
    exact hpopped.trans (List.append_nil _).symm

theorem writes_of_stores {op : Operation} (hstores : op.stores = true) (operand : Operand)
    (cpu : Cpu (Recorded β)) : ∃ v, (cpu.execute op operand).2.bus.writes =
      cpu.bus.writes ++ toOperand operand.addr? v := by
  cases op with
  | write op => exact ⟨_, cpu.writes_store operand (op.value cpu.toRegisters)⟩
  | modify op => exact cpu.writes_modify operand op
  | combined op => exact cpu.writes_modify operand op.change
  | _ => cases hstores

theorem writes_of_silent {op : Operation} (hstores : op.stores = false)
    (hpushes : op.pushes = false) (operand : Operand) (cpu : Cpu (Recorded β)) :
    (cpu.execute op operand).2.bus.writes = cpu.bus.writes := by
  cases op with
  | read op => exact cpu.writes_load operand.place
  | branch op =>
    show (cpu.branch op operand).2.bus.writes = cpu.bus.writes
    unfold branch
    split <;> rfl
  | control op =>
    refine (writes_control cpu.toRegisters cpu.bus op operand).trans ?_
    cases op with
    | pha | php | jsr | brk => cases hpushes
    | _ => exact List.append_nil _
  | register op => rfl
  | nop => rfl
  | _ => cases hstores

/-- Each of the four operations that push does so on its own account. -/
theorem writes_of_pushes {cpu : Cpu β} {f : Fetched} {bus : Recorded β}
    (hfetch : cpu.fetch.1 = .ok f) (hpushes : f.instruction.operation.pushes = true)
    (hnone : bus.writes = []) : cpu.Writes .step
      (execute f.instruction.operation f.operand ⟨{ cpu.toRegisters with
        pc := cpu.pc + (1 + f.instruction.mode.operandLength).toUInt16 }, bus⟩).2.bus.writes := by
  have hdecode := decode_of_fetch hfetch
  have hruns := operation?_of_fetch hfetch
  generalize hpc : cpu.pc + (1 + f.instruction.mode.operandLength).toUInt16 = pc
  cases hop : f.instruction.operation with
  | control op =>
    rw [hop] at hruns hpushes
    show cpu.Writes .step (control op f.operand ⟨{ cpu.toRegisters with pc }, bus⟩).bus.writes
    rw [writes_control, hnone, List.nil_append]
    cases op with
    | pha => exact .pha hruns
    | php => exact .php hruns (cpu.flags.isCopy_pushed true)
    | jsr =>
      have hlast : pc - 1 = cpu.pc + 2 := by
        rw [← hpc, Instruction.mode_of_control hdecode hop rfl]
        exact add_sub_assoc cpu.pc 3 1
      dsimp only
      rw [hlast]
      exact .jsr hruns
    | brk =>
      have hskipped : pc + 1 = cpu.pc + 2 := by
        rw [← hpc, Instruction.mode_of_control hdecode hop rfl]
        exact add_assoc cpu.pc 1 1
      dsimp only
      rw [hskipped]
      exact .brk hruns (cpu.flags.isCopy_pushed true)
    | _ => cases hpushes
  | _ =>
    rw [hop] at hpushes
    cases hpushes

theorem writes_execute {cpu : Cpu β} {f : Fetched} {bus : Recorded β}
    (hfetch : cpu.fetch.1 = .ok f) (hnone : bus.writes = []) : cpu.Writes .step
      (execute f.instruction.operation f.operand ⟨{ cpu.toRegisters with
        pc := cpu.pc + (1 + f.instruction.mode.operandLength).toUInt16 }, bus⟩).2.bus.writes := by
  have hruns := operation?_of_fetch hfetch
  cases hstores : f.instruction.operation.stores with
  | true =>
    obtain ⟨v, hv⟩ := writes_of_stores hstores f.operand ⟨{ cpu.toRegisters with
      pc := cpu.pc + (1 + f.instruction.mode.operandLength).toUInt16 }, bus⟩
    rw [hv, hnone, List.nil_append, ← target?_of_fetch hfetch]
    exact .stored hruns hstores v
  | false =>
    cases hpushes : f.instruction.operation.pushes with
    | true => exact writes_of_pushes hfetch hpushes hnone
    | false =>
      rw [writes_of_silent hstores hpushes, hnone]
      exact .silent hruns hstores hpushes

theorem writes_step (cpu : Cpu β) : cpu.Writes .step cpu.onRecord.step.2.bus.writes := by
  have hregisters := cpu.onRecord.registers_fetch
  have hnone := cpu.onRecord.writes_fetch
  have halike := (cpu.related_onRecord.fetch device_simulation).answer
  unfold step
  rcases hfetch : cpu.onRecord.fetch with ⟨result, r, bus⟩
  rw [hfetch] at hregisters hnone halike
  dsimp only at hregisters hnone halike
  subst hregisters
  cases result with
  | error e =>
    dsimp only
    rw [hnone]
    refine .fault ?_
    rw [operation?, ← halike]
    rfl
  | ok f => exact writes_execute halike.symm hnone

theorem writes_happen (cpu : Cpu β) (event : Event) :
    cpu.Writes event (cpu.onRecord.happen event).bus.writes := by
  cases event with
  | step => exact cpu.writes_step
  | nmi =>
    have hframe := writes_enter cpu.onRecord cpu.pc false nmiVector
    show cpu.Writes .nmi (cpu.onRecord.enter cpu.pc false nmiVector).bus.writes
    rw [hframe]
    exact .nmi (cpu.flags.isCopy_pushed false)
  | irq =>
    show cpu.Writes .irq cpu.onRecord.irq.2.bus.writes
    unfold irq
    split
    case isTrue hdisabled => exact .masked hdisabled
    case isFalse henabled =>
      have hframe := writes_enter cpu.onRecord cpu.pc false irqVector
      show cpu.Writes .irq (cpu.onRecord.enter cpu.pc false irqVector).bus.writes
      rw [hframe]
      exact .irq (Bool.eq_false_iff.2 henabled) (cpu.flags.isCopy_pushed false)
  | reset => exact .reset
  | resetTo pc => exact .resetTo pc

/-! ### What is pulled -/

theorem pops_status {op : ControlOp} (hop : op = .plp ∨ op = .rti) (operand : Operand)
    (cpu : Cpu (Recorded β)) : ∃ rest, (cpu.control op operand).bus.accesses.toList =
        cpu.bus.accesses.toList ++ .read (stackCell (cpu.sp + 1)) cpu.pop.1 :: rest ∧
      (cpu.control op operand).flags = .pulled cpu.pop.1 := by
  have hpop : cpu.pop.2.bus.accesses.toList =
      cpu.bus.accesses.toList ++ [.read (stackCell (cpu.sp + 1)) cpu.pop.1] := by
    rw [← stackAddr_eq]
    exact Array.toList_push
  rcases hop with rfl | rfl
  · exact ⟨[], hpop, rfl⟩
  · obtain ⟨rest, hword, -⟩ := cpu.pop.2.made_popWord
    rw [hpop, List.append_assoc] at hword
    exact ⟨rest, hword, rfl⟩

theorem toByte_step_pulled {cpu : Cpu β} {op : ControlOp} (hop : op = .plp ∨ op = .rti)
    (hruns : cpu.operation? = some (.control op)) : ∃ opcode pulled rest,
      cpu.onRecord.step.2.bus.accesses.toList =
        .read cpu.pc opcode :: .read (stackCell (cpu.sp + 1)) pulled :: rest ∧
      cpu.step.2.flags.toByte = pulled &&& 0xEF ||| 0x20 := by
  have hsame : cpu.onRecord.step.2.toRegisters = cpu.step.2.toRegisters :=
    (cpu.related_onRecord.step device_simulation).state.registers
  have hflags : cpu.step.2.flags = cpu.onRecord.step.2.flags := by rw [hsame]
  obtain ⟨r, bus⟩ := cpu
  rw [hflags]
  cases hdecode : Instruction.decode (Bus.read bus r.pc).1 with
  | none =>
    rw [operation?, fetch_error hdecode] at hruns
    cases hruns
  | some i =>
    rw [operation?, fetch_ok hdecode] at hruns
    have hcontrol : i.operation = .control op := Option.some.inj hruns
    have hmode : i.mode = .implied := by
      refine Instruction.mode_of_control hdecode hcontrol ?_
      rcases hop with rfl | rfl <;> rfl
    obtain ⟨operation, mode, documented⟩ := i
    obtain rfl : operation = .control op := hcontrol
    obtain rfl : mode = .implied := hmode
    let moved : Cpu (Recorded β) :=
      ⟨{ r with pc := r.pc + 1 }, (Bus.read (Recorded.start bus) r.pc).2⟩
    obtain ⟨rest, haccesses, hpulled⟩ := pops_status hop { mode := .implied } moved
    refine ⟨(Bus.read bus r.pc).1, moved.pop.1, rest, ?_, ?_⟩
    · unfold onRecord step
      dsimp only
      rw [fetch_ok (b := Recorded.start bus) hdecode]
      exact haccesses
    · unfold onRecord step
      dsimp only
      rw [fetch_ok (b := Recorded.start bus) hdecode, ← Flags.toByte_pulled, ← hpulled]
      rfl

/-! ### The law -/

theorem Related.happen {γ : Type} [Bus γ] {R : β → γ → Prop} {p : Cpu β} {q : Cpu γ}
    (h : Related R p q) (hs : Bus.Simulation R) (event : Event) :
    Related R (p.happen event) (q.happen event) := by
  have hinterrupt : ∀ vector, Related R (p.interrupt vector) (q.interrupt vector) := by
    intro vector
    unfold interrupt
    rw [h.registers]
    exact (h.enter hs q.pc false vector).onRegisters _
  cases event with
  | step => exact (h.step hs).state
  | nmi => exact hinterrupt nmiVector
  | irq =>
    show Related R p.irq.2 q.irq.2
    unfold irq
    rw [h.registers]
    split
    · exact h
    · exact hinterrupt irqVector
  | reset =>
    obtain ⟨hpc, hread⟩ := h.readWord hs resetVector
    show Related R ((p.readWord resetVector).2.resetTo (p.readWord resetVector).1)
      ((q.readWord resetVector).2.resetTo (q.readWord resetVector).1)
    rw [hpc]
    exact hread.onRegisters fun _ => { pc := (q.readWord resetVector).1, cycles := 7 }
  | resetTo pc => exact h.onRegisters fun _ => { pc, cycles := 7 }

/-- In every run from a reset, over any bus, the status byte has bit 5 set and bit 4 clear.  What
each event writes, a record of its accesses tells: there is a copy of the status where an operation
pushes one, with bit 4 set, and where an interrupt does, with bit 4 clear.  Of a byte that is pulled
into the status bit 4 is dropped and bit 5 set. -/
theorem status_of_run (cpu : Cpu β) (pc? : Option UInt16) (events : List Event) :
    let s := (cpu.restart pc?).history events
    s.flags.toByte &&& 0x30 = 0x20 ∧
    (∀ event, let recorded := s.onRecord.happen event
      recorded.toRegisters = (s.happen event).toRegisters ∧
      recorded.bus.device = (s.happen event).bus ∧
      s.Writes event recorded.bus.writes) ∧
    (∀ op, op = .plp ∨ op = .rti → s.operation? = some (.control op) → ∃ opcode pulled rest,
      s.onRecord.step.2.bus.accesses.toList =
        .read s.pc opcode :: .read (stackCell (s.sp + 1)) pulled :: rest ∧
      s.step.2.flags.toByte = pulled &&& 0xEF ||| 0x20) := by
  intro s
  have hclear : s.flags.breakCommand = false :=
    breakCommand_history events (cpu.breakCommand_restart pc?)
  refine ⟨s.flags.toByte_bits hclear, fun event => ?_, fun op hop hruns => ?_⟩
  · have halike := s.related_onRecord.happen device_simulation event
    exact ⟨halike.registers, halike.bus, s.writes_happen event⟩
  · exact toByte_step_pulled hop hruns

end Cpu

end Nes
