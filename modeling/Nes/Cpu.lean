import Nes.Bus
import Nes.Cpu.Instruction
import Nes.Cpu.Operand
import Nes.Cpu.Registers
import Nes.Hex

/-!
# The processor

A step fetches an opcode and its operand, moves the program counter past them, and then does
what the operation says.  `Cpu.fetch` makes every access up to the operand and changes no
register; `Cpu.perform` does the rest.  An opcode that stands for no instruction ends the step
after the one read that found it.

famicore's `step` is `Cpu.step`, and its `trigger_nmi`, `trigger_irq` and `interrupt` are
`Cpu.nmi`, `Cpu.irq` and `Cpu.interrupt`; `reset`, `reset_to`, `resolve`, `execute`, `load`,
`store`, `modify`, `branch`, `push`, `pop`, `push_word` and `pop_word` go by the same names.
-/

namespace Nes

/-- A processor and the bus that it drives. -/
structure Cpu (β : Type) extends Registers where
  bus : β

/-- The program counter points at a byte that is no instruction. -/
structure UnknownOpcode where
  pc : UInt16
  opcode : UInt8
deriving DecidableEq, Repr

def UnknownOpcode.message (e : UnknownOpcode) : String :=
  "unknown opcode $" ++ Hex.byte e.opcode ++ " at $" ++ Hex.word e.pc

/-- An instruction with its operand, ready to be performed. -/
structure Fetched where
  opcode : UInt8
  instruction : Instruction
  operand : Operand
deriving DecidableEq, Repr

namespace Cpu

def nmiVector : UInt16 := 0xFFFA
def resetVector : UInt16 := 0xFFFC
def irqVector : UInt16 := 0xFFFE

def powerOn {β : Type} (bus : β) : Cpu β := { bus }

variable {β : Type}

@[inline] def onRegisters (cpu : Cpu β) (f : Registers → Registers) : Cpu β :=
  match cpu with
  | ⟨r, bus⟩ => ⟨f r, bus⟩

@[inline] def onBus (cpu : Cpu β) (f : β → β) : Cpu β :=
  match cpu with
  | ⟨r, bus⟩ => ⟨r, f bus⟩

@[inline] def askBus {γ : Type} (cpu : Cpu β) (f : β → γ × β) : γ × Cpu β :=
  match cpu with
  | ⟨r, bus⟩ =>
    match f bus with
    | (answer, bus) => (answer, ⟨r, bus⟩)

/-- The registers after a reset to `pc`, whatever they were. -/
def resetTo (cpu : Cpu β) (pc : UInt16) : Cpu β :=
  cpu.onRegisters fun _ => { pc, cycles := 7 }

variable [Bus β]

/-! ### Accesses -/

@[inline] def read (cpu : Cpu β) (addr : UInt16) : UInt8 × Cpu β := cpu.askBus (Bus.read · addr)

@[inline] def readWord (cpu : Cpu β) (addr : UInt16) : UInt16 × Cpu β :=
  cpu.askBus (Bus.readWord · addr)

@[inline] def write (cpu : Cpu β) (addr : UInt16) (v : UInt8) : Cpu β :=
  cpu.onBus (Bus.write · addr v)

/-- The cell of page one that the stack pointer names. -/
@[inline] def stackAddr (sp : UInt8) : UInt16 := 0x0100 + sp.toUInt16

@[inline] def push (cpu : Cpu β) (v : UInt8) : Cpu β :=
  (cpu.write (stackAddr cpu.sp) v).onRegisters fun r => { r with sp := r.sp - 1 }

@[inline] def pop (cpu : Cpu β) : UInt8 × Cpu β :=
  let cpu := cpu.onRegisters fun r => { r with sp := r.sp + 1 }
  cpu.read (stackAddr cpu.sp)

/-- The high byte goes first, so that the word lies low byte first in memory. -/
@[inline] def pushWord (cpu : Cpu β) (w : UInt16) : Cpu β := (cpu.push (Word.hi w)).push (Word.lo w)

@[inline] def popWord (cpu : Cpu β) : UInt16 × Cpu β :=
  match cpu.pop with
  | (lo, cpu) =>
    match cpu.pop with
    | (hi, cpu) => (Word.ofBytes lo hi, cpu)

@[inline] def load (cpu : Cpu β) (place : Place) : UInt8 × Cpu β :=
  match place with
  | .literal v => (v, cpu)
  | .memory addr => cpu.read addr
  | .accumulator => (cpu.a, cpu)

/-- A byte into the operand's cell; an operand that has none drops it. -/
@[inline] def store (cpu : Cpu β) (place : Place) (v : UInt8) : Cpu β :=
  match place with
  | .memory addr => cpu.write addr v
  | _ => cpu

/-- The operand changed in place, by one read and one write, and its new value. -/
@[inline] def modify (cpu : Cpu β) (place : Place) (op : ModifyOp) : UInt8 × Cpu β :=
  match cpu.load place with
  | (v, cpu) =>
    match op.apply cpu.flags v with
    | (v, flags) =>
      let cpu := cpu.onRegisters fun r => { r with flags }
      match place with
      | .memory addr => (v, cpu.write addr v)
      | _ => (v, cpu.onRegisters fun r => { r with a := v })

/-! ### Interrupts -/

/-- The program counter and the status pushed, interrupts off, and on through the vector. -/
@[inline] def enter (cpu : Cpu β) (returnTo : UInt16) (software : Bool) (vector : UInt16) : Cpu β :=
  let status := cpu.flags.pushed software
  match ((cpu.pushWord returnTo).push status).readWord vector with
  | (pc, cpu) =>
    cpu.onRegisters fun r => { r with pc, flags := { r.flags with interruptDisable := true } }

/-- An interrupt from outside, which costs seven cycles. -/
@[specialize] def interrupt (cpu : Cpu β) (vector : UInt16) : Cpu β :=
  (cpu.enter cpu.pc false vector).onRegisters fun r => { r with cycles := r.cycles + 7 }

def nmi (cpu : Cpu β) : Cpu β := cpu.interrupt nmiVector

def irq (cpu : Cpu β) : Bool × Cpu β :=
  if cpu.flags.interruptDisable then (false, cpu) else (true, cpu.interrupt irqVector)

/-- A reset through its vector, and the address found there. -/
def reset (cpu : Cpu β) : UInt16 × Cpu β :=
  match cpu.readWord resetVector with
  | (pc, cpu) => (pc, cpu.resetTo pc)

/-! ### Instructions -/

@[specialize] def control (op : ControlOp) (operand : Operand) (cpu : Cpu β) : Cpu β :=
  match op with
  | .pha => cpu.push cpu.a
  | .php => cpu.push (cpu.flags.pushed true)
  | .pla =>
    match cpu.pop with
    | (v, cpu) => cpu.onRegisters (·.setA v)
  | .plp =>
    match cpu.pop with
    | (v, cpu) => cpu.onRegisters fun r => { r with flags := .pulled v }
  | .jmp => cpu.onRegisters fun r => { r with pc := operand.addr?.getD r.pc }
  | .jsr =>
    (cpu.pushWord (cpu.pc - 1)).onRegisters fun r => { r with pc := operand.addr?.getD r.pc }
  | .rts =>
    match cpu.popWord with
    | (w, cpu) => cpu.onRegisters fun r => { r with pc := w + 1 }
  | .rti =>
    match cpu.pop with
    | (v, cpu) =>
      match cpu.popWord with
      | (w, cpu) => cpu.onRegisters fun r => { r with flags := .pulled v, pc := w }
  | .brk => cpu.enter (cpu.pc + 1) true irqVector

/-- A taken branch costs a cycle, and another when it leaves the page. -/
@[inline] def branch (op : BranchOp) (operand : Operand) (cpu : Cpu β) : Nat × Cpu β :=
  match op.taken cpu.flags, operand.addr? with
  | true, some target =>
    (if operand.crossed then 2 else 1, cpu.onRegisters fun r => { r with pc := target })
  | _, _ => (0, cpu)

/-- What an operation does, and the cycles that it adds. -/
@[specialize] def execute (op : Operation) (operand : Operand) (cpu : Cpu β) : Nat × Cpu β :=
  match op with
  | .read op =>
    match cpu.load operand.place with
    | (v, cpu) => (0, cpu.onRegisters (op.apply · v))
  | .write op => (0, cpu.store operand.place (op.value cpu.toRegisters))
  | .modify op =>
    match cpu.modify operand.place op with
    | (v, cpu) => (0, cpu.onRegisters fun r => { r with flags := r.flags.withZN v })
  | .combined op =>
    match cpu.modify operand.place op.change with
    | (v, cpu) => (0, cpu.onRegisters (op.use.apply · v))
  | .register op => (0, cpu.onRegisters op.apply)
  | .branch op => cpu.branch op operand
  | .control op => (0, cpu.control op operand)
  | .nop => (0, cpu)

@[inline] def resolve (cpu : Cpu β) (mode : Mode) : Operand × Cpu β :=
  let r := cpu.toRegisters
  cpu.askBus fun bus => Operand.resolve bus (r.pc + 1) r.x r.y mode

/-- The instruction at the program counter, which stays where it is. -/
@[specialize] def fetch (cpu : Cpu β) : Except UnknownOpcode Fetched × Cpu β :=
  match cpu.read cpu.pc with
  | (opcode, cpu) =>
    match Instruction.decode opcode with
    | none => (.error ⟨cpu.pc, opcode⟩, cpu)
    | some instruction =>
      match cpu.resolve instruction.mode with
      | (operand, cpu) => (.ok ⟨opcode, instruction, operand⟩, cpu)

/-- A fetched instruction carried out, and the cycles that it took. -/
@[specialize] def perform (f : Fetched) (cpu : Cpu β) : Nat × Cpu β :=
  let length := (1 + f.instruction.mode.operandLength).toUInt16
  let page := if f.instruction.pagePenalty && f.operand.crossed then 1 else 0
  match (cpu.onRegisters fun r => { r with pc := r.pc + length }).execute
      f.instruction.operation f.operand with
  | (extra, cpu) =>
    let cycles := f.instruction.cycles + page + extra
    (cycles, cpu.onRegisters fun r => { r with cycles := r.cycles + cycles })

@[specialize] def step (cpu : Cpu β) : Except UnknownOpcode Nat × Cpu β :=
  match cpu.fetch with
  | (.error e, cpu) => (.error e, cpu)
  | (.ok f, cpu) =>
    match cpu.perform f with
    | (cycles, cpu) => (.ok cycles, cpu)

end Cpu

end Nes
