/-!
# Operations

An operation is sorted by what it does with its operand: read it, write it, change it in place,
jump to it, or nothing.  The class alone settles which bus accesses an instruction makes; the
rest of an operation is arithmetic on registers.

famicore lists the operations in one `Operation`, with their `mnemonic`, and each has its own case
of `execute`; the classes gather the cases that make the same accesses.
-/

namespace Nes

/-- Operations that take the operand's value. -/
inductive ReadOp
  | lda | ldx | ldy | lax | and | ora | eor | adc | sbc | cmp | cpx | cpy | bit
deriving DecidableEq, Repr

/-- Operations that store a register. -/
inductive WriteOp
  | sta | stx | sty | sax
deriving DecidableEq, Repr

/-- Ways to change a byte in place. -/
inductive ModifyOp
  | inc | dec | asl | lsr | rol | ror
deriving DecidableEq, Repr

/-- Operations that change the operand in place and then take the result. -/
inductive CombinedOp
  | dcp | isb | slo | rla | sre | rra
deriving DecidableEq, Repr

/-- Operations on registers and conditions alone. -/
inductive RegisterOp
  | tax | tay | txa | tya | tsx | txs | inx | iny | dex | dey
  | clc | sec | cli | sei | cld | sed | clv
deriving DecidableEq, Repr

/-- Branches, named by the condition under which they are taken. -/
inductive BranchOp
  | bcc | bcs | beq | bne | bmi | bpl | bvc | bvs
deriving DecidableEq, Repr

/-- Operations on the stack and jumps. -/
inductive ControlOp
  | pha | php | pla | plp | jmp | jsr | rts | rti | brk
deriving DecidableEq, Repr

inductive Operation
  | read (op : ReadOp)
  | write (op : WriteOp)
  | modify (op : ModifyOp)
  | combined (op : CombinedOp)
  | register (op : RegisterOp)
  | branch (op : BranchOp)
  | control (op : ControlOp)
  | nop
deriving DecidableEq, Repr

/-- The change that a combined operation makes in place. -/
def CombinedOp.change : CombinedOp → ModifyOp
  | dcp => .dec
  | isb => .inc
  | slo => .asl
  | rla => .rol
  | sre => .lsr
  | rra => .ror

/-- The operation that a combined operation then does with the result. -/
def CombinedOp.use : CombinedOp → ReadOp
  | dcp => .cmp
  | isb => .sbc
  | slo => .ora
  | rla => .and
  | sre => .eor
  | rra => .adc

/-! ### Mnemonics -/

def ReadOp.mnemonic : ReadOp → String
  | lda => "LDA" | ldx => "LDX" | ldy => "LDY" | lax => "LAX" | and => "AND" | ora => "ORA"
  | eor => "EOR" | adc => "ADC" | sbc => "SBC" | cmp => "CMP" | cpx => "CPX" | cpy => "CPY"
  | bit => "BIT"

def WriteOp.mnemonic : WriteOp → String
  | sta => "STA" | stx => "STX" | sty => "STY" | sax => "SAX"

def ModifyOp.mnemonic : ModifyOp → String
  | inc => "INC" | dec => "DEC" | asl => "ASL" | lsr => "LSR" | rol => "ROL" | ror => "ROR"

def CombinedOp.mnemonic : CombinedOp → String
  | dcp => "DCP" | isb => "ISB" | slo => "SLO" | rla => "RLA" | sre => "SRE" | rra => "RRA"

def RegisterOp.mnemonic : RegisterOp → String
  | tax => "TAX" | tay => "TAY" | txa => "TXA" | tya => "TYA" | tsx => "TSX" | txs => "TXS"
  | inx => "INX" | iny => "INY" | dex => "DEX" | dey => "DEY" | clc => "CLC" | sec => "SEC"
  | cli => "CLI" | sei => "SEI" | cld => "CLD" | sed => "SED" | clv => "CLV"

def BranchOp.mnemonic : BranchOp → String
  | bcc => "BCC" | bcs => "BCS" | beq => "BEQ" | bne => "BNE" | bmi => "BMI" | bpl => "BPL"
  | bvc => "BVC" | bvs => "BVS"

def ControlOp.mnemonic : ControlOp → String
  | pha => "PHA" | php => "PHP" | pla => "PLA" | plp => "PLP" | jmp => "JMP" | jsr => "JSR"
  | rts => "RTS" | rti => "RTI" | brk => "BRK"

def Operation.mnemonic : Operation → String
  | read op => op.mnemonic
  | write op => op.mnemonic
  | modify op => op.mnemonic
  | combined op => op.mnemonic
  | register op => op.mnemonic
  | branch op => op.mnemonic
  | control op => op.mnemonic
  | nop => "NOP"

theorem Operation.length_mnemonic (op : Operation) : op.mnemonic.length = 3 := by
  rcases op with op | op | op | op | op | op | op | _ <;> (try cases op) <;> rfl

end Nes
