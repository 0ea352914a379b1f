import Nes.Proofs.Checked.Arithmetic
import Nes.Proofs.Cpu.Cycles

/-!
# The processor, checked

An instruction with its opcode looked up in a checked table, its length added in sixteen bits and
its cycles in thirty-two, and the sums of additions and subtractions checked.  Two bytes and a
carry fit a word and no instruction takes more than eight cycles, so that a checked step is a step
on every bus.
-/

namespace Nes

open Checked

/-! ### Sums -/

/-- The sum of two bytes and the carry, a word. -/
def Flags.addChecked (f : Flags) (a b : UInt8) : Checked (UInt8 × Flags) := do
  let bytes ← Checked.add a.toUInt16 b.toUInt16
  let sum ← Checked.add bytes f.carry.toUInt16
  let r := sum.toUInt8
  return (r, { f.withZN r with
    carry := sum > 0xFF
    overflow := testBits (~~~(a ^^^ b) &&& (a ^^^ r)) 0x80 })

theorem Flags.addChecked_ok (f : Flags) (a b : UInt8) : f.addChecked a b = .ok (f.add a b) := by
  have ha := a.toNat_lt
  have hb := b.toNat_lt
  have hbytes : a.toUInt16.toNat + b.toUInt16.toNat < 2 ^ 16 := by
    rw [UInt8.toNat_toUInt16, UInt8.toNat_toUInt16]
    omega
  have hcarry : f.carry.toUInt16.toNat ≤ 1 := by cases f.carry <;> decide
  have hsum : (a.toUInt16 + b.toUInt16).toNat + f.carry.toUInt16.toNat < 2 ^ 16 := by
    rw [UInt16.toNat_add, Nat.mod_eq_of_lt hbytes, UInt8.toNat_toUInt16, UInt8.toNat_toUInt16]
    omega
  unfold Flags.addChecked
  rw [add_ok hbytes, ok_bind, add_ok hsum]
  rfl

def Registers.addToAChecked (r : Registers) (v : UInt8) : Checked Registers := do
  let (sum, flags) ← r.flags.addChecked r.a v
  return { r with a := sum, flags }

def ReadOp.applyChecked (op : ReadOp) (r : Registers) (v : UInt8) : Checked Registers :=
  match op with
  | .adc => r.addToAChecked v
  | .sbc => r.addToAChecked (v ^^^ 0xFF)
  | op => .ok (op.apply r v)

theorem Registers.addToAChecked_ok (r : Registers) (v : UInt8) :
    r.addToAChecked v = .ok (r.addToA v) := by
  unfold Registers.addToAChecked
  rw [Flags.addChecked_ok]
  rfl

theorem ReadOp.applyChecked_ok (op : ReadOp) (r : Registers) (v : UInt8) :
    op.applyChecked r v = .ok (op.apply r v) := by
  cases op with
  | adc => exact r.addToAChecked_ok v
  | sbc => exact r.addToAChecked_ok (v ^^^ 0xFF)
  | _ => rfl

/-! ### Operands -/

/-- The operand's own bytes, a slice of the two there is room for. -/
def Operand.bytesChecked (o : Operand) : Checked (List UInt8) :=
  if o.mode.operandLength ≤ 2 then .ok ([o.lo, o.hi].take o.mode.operandLength)
  else .error .index

theorem Operand.bytesChecked_ok (o : Operand) : o.bytesChecked = .ok o.bytes := by
  have hlength : o.mode.operandLength ≤ 2 := by cases o.mode <;> decide
  exact if_pos hlength

/-! ### Instructions -/

/-- The cycles of an instruction with the one for a page that it leaves. -/
def Fetched.cyclesChecked (f : Fetched) : Checked Nat :=
  if f.instruction.pagePenalty && f.operand.crossed then addIn 32 f.instruction.cycles 1
  else .ok f.instruction.cycles

theorem Fetched.cyclesChecked_ok (f : Fetched) : f.cyclesChecked =
    .ok (f.instruction.cycles +
      if f.instruction.pagePenalty && f.operand.crossed then 1 else 0) := by
  have hle := f.instruction.cycles_add_page_le f.operand.crossed
  unfold Fetched.cyclesChecked
  split
  case isTrue h =>
    rw [if_pos h] at hle
    exact addIn_ok (by omega)
  case isFalse => rfl

namespace Cpu

variable {β : Type}

def noteChecked [Journaled β] (cpu : Cpu β) (f : Fetched) : Checked (Cpu β) :=
  if (Journaled.journal cpu.bus).admits .trace then do
    let _ ← f.operand.bytesChecked
    return cpu.onBus (Journaled.onJournal · (·.add (.instruction f (.of cpu.toRegisters))))
  else .ok cpu

theorem noteChecked_ok [Journaled β] (cpu : Cpu β) (f : Fetched) :
    cpu.noteChecked f = .ok (cpu.noteInstruction f) := by
  obtain ⟨r, bus⟩ := cpu
  unfold noteChecked noteInstruction
  rw [Operand.bytesChecked_ok, ok_bind]
  dsimp only
  split <;> rfl

variable [Bus β]

def executeChecked (op : Operation) (operand : Operand) (cpu : Cpu β) : Checked (Nat × Cpu β) :=
  match op with
  | .read op => do
    let (v, cpu) := cpu.load operand.place
    let r ← op.applyChecked cpu.toRegisters v
    return (0, cpu.onRegisters fun _ => r)
  | .combined op => do
    let (v, cpu) := cpu.modify operand.place op.change
    let r ← op.use.applyChecked cpu.toRegisters v
    return (0, cpu.onRegisters fun _ => r)
  | op => .ok (cpu.execute op operand)

def fetchChecked (cpu : Cpu β) : Checked (Except UnknownOpcode Fetched × Cpu β) := do
  let (opcode, cpu) := cpu.read cpu.pc
  let decoded ← entry Instruction.table opcode.toNat
  match decoded with
  | none => return (.error ⟨cpu.pc, opcode⟩, cpu)
  | some instruction => do
    let (operand, cpu) := cpu.resolve instruction.mode
    return (.ok ⟨opcode, instruction, operand⟩, cpu)

def performChecked (f : Fetched) (cpu : Cpu β) : Checked (Nat × Cpu β) := do
  let length ← addIn 16 1 f.instruction.mode.operandLength
  let spent ← f.cyclesChecked
  let next := cpu.onRegisters fun r => { r with pc := r.pc + length.toUInt16 }
  let (extra, cpu) ← next.executeChecked f.instruction.operation f.operand
  let cycles ← addIn 32 spent extra
  return (cycles, cpu.onRegisters fun r => { r with cycles := r.cycles + cycles })

def stepChecked [Journaled β] (cpu : Cpu β) : Checked (Except UnknownOpcode Nat × Cpu β) := do
  let (fetched, cpu) ← cpu.fetchChecked
  match fetched with
  | .error e => return (.error e, cpu)
  | .ok f => do
    let cpu ← cpu.noteChecked f
    let (cycles, cpu) ← cpu.performChecked f
    return (.ok cycles, cpu)

/-! ### Nothing goes wrong -/

theorem executeChecked_ok (op : Operation) (operand : Operand) (cpu : Cpu β) :
    cpu.executeChecked op operand = .ok (cpu.execute op operand) := by
  cases op with
  | read op =>
    simp only [executeChecked, ReadOp.applyChecked_ok, ok_bind]
    rfl
  | combined op =>
    simp only [executeChecked, ReadOp.applyChecked_ok, ok_bind]
    rfl
  | _ => rfl

theorem fetchChecked_ok (cpu : Cpu β) : cpu.fetchChecked = .ok cpu.fetch := by
  unfold fetchChecked fetch
  rcases cpu.read cpu.pc with ⟨opcode, cpu⟩
  dsimp only
  rw [entry_ok Instruction.table opcode.toNat_lt, ok_bind]
  unfold Instruction.decode
  split
  · rename_i h
    rw [h]
    rfl
  · rename_i h
    rw [h]
    rfl

theorem performChecked_ok (f : Fetched) (cpu : Cpu β) :
    cpu.performChecked f = .ok (cpu.perform f) := by
  have hlength : 1 + f.instruction.mode.operandLength < 2 ^ 16 := by
    cases f.instruction.mode <;> decide
  have hcycles (next : Cpu β) := execute_cycles_le f.instruction f.operand next
  unfold performChecked
  rw [addIn_ok hlength, ok_bind, Fetched.cyclesChecked_ok, ok_bind]
  dsimp only
  rw [executeChecked_ok, ok_bind, addIn_ok (Nat.lt_of_le_of_lt (hcycles _) (by decide))]
  rfl

theorem stepChecked_ok [Journaled β] (cpu : Cpu β) : cpu.stepChecked = .ok cpu.stepNoted := by
  unfold stepChecked stepNoted
  rw [fetchChecked_ok, ok_bind]
  rcases cpu.fetch with ⟨fetched, cpu⟩
  cases fetched with
  | error e => rfl
  | ok f =>
    dsimp only
    rw [noteChecked_ok, ok_bind, performChecked_ok]
    rfl

end Cpu

end Nes
