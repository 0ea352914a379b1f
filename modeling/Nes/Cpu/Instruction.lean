import Nes.Cpu.Mode
import Nes.Cpu.Operation

/-!
# Instructions

An opcode stands for an operation together with an addressing mode; 25 of the 256 bytes stand
for nothing.  The cycle count of an instruction follows from its operation's class and its mode:
a read pays for each byte it fetches, a write always pays for indexing and a read only when
indexing leaves the page, and a change in place takes two cycles more.

famicore's `decode` looks the opcode up in the table that `build` fills from its two lists; there
the cycles and the page penalty stand beside each opcode.
-/

namespace Nes

/-- An operation, the way its operand is named, and whether the opcode is documented. -/
structure Instruction where
  operation : Operation
  mode : Mode
  documented : Bool
deriving DecidableEq, Repr

namespace Instruction

/-! ### Opcodes -/

/-- A documented opcode. -/
def std (operation : Operation) (mode : Mode) : Option Instruction := some ⟨operation, mode, true⟩

/-- An opcode that works but is not documented. -/
def und (operation : Operation) (mode : Mode) : Option Instruction := some ⟨operation, mode, false⟩

set_option maxRecDepth 4000 in
/-- The instruction of each opcode, sixteen to a group. -/
def table : Vector (Option Instruction) 256 :=
  ⟨#[
    -- $00
    std (.control .brk) .implied, std (.read .ora) .indirectX, none,
    und (.combined .slo) .indirectX, und .nop .zeroPage, std (.read .ora) .zeroPage,
    std (.modify .asl) .zeroPage, und (.combined .slo) .zeroPage, std (.control .php) .implied,
    std (.read .ora) .immediate, std (.modify .asl) .accumulator, none, und .nop .absolute,
    std (.read .ora) .absolute, std (.modify .asl) .absolute, und (.combined .slo) .absolute,
    -- $10
    std (.branch .bpl) .relative, std (.read .ora) .indirectY, none,
    und (.combined .slo) .indirectY, und .nop .zeroPageX, std (.read .ora) .zeroPageX,
    std (.modify .asl) .zeroPageX, und (.combined .slo) .zeroPageX,
    std (.register .clc) .implied, std (.read .ora) .absoluteY, und .nop .implied,
    und (.combined .slo) .absoluteY, und .nop .absoluteX, std (.read .ora) .absoluteX,
    std (.modify .asl) .absoluteX, und (.combined .slo) .absoluteX,
    -- $20
    std (.control .jsr) .absolute, std (.read .and) .indirectX, none,
    und (.combined .rla) .indirectX, std (.read .bit) .zeroPage, std (.read .and) .zeroPage,
    std (.modify .rol) .zeroPage, und (.combined .rla) .zeroPage, std (.control .plp) .implied,
    std (.read .and) .immediate, std (.modify .rol) .accumulator, none,
    std (.read .bit) .absolute, std (.read .and) .absolute, std (.modify .rol) .absolute,
    und (.combined .rla) .absolute,
    -- $30
    std (.branch .bmi) .relative, std (.read .and) .indirectY, none,
    und (.combined .rla) .indirectY, und .nop .zeroPageX, std (.read .and) .zeroPageX,
    std (.modify .rol) .zeroPageX, und (.combined .rla) .zeroPageX,
    std (.register .sec) .implied, std (.read .and) .absoluteY, und .nop .implied,
    und (.combined .rla) .absoluteY, und .nop .absoluteX, std (.read .and) .absoluteX,
    std (.modify .rol) .absoluteX, und (.combined .rla) .absoluteX,
    -- $40
    std (.control .rti) .implied, std (.read .eor) .indirectX, none,
    und (.combined .sre) .indirectX, und .nop .zeroPage, std (.read .eor) .zeroPage,
    std (.modify .lsr) .zeroPage, und (.combined .sre) .zeroPage, std (.control .pha) .implied,
    std (.read .eor) .immediate, std (.modify .lsr) .accumulator, none,
    std (.control .jmp) .absolute, std (.read .eor) .absolute, std (.modify .lsr) .absolute,
    und (.combined .sre) .absolute,
    -- $50
    std (.branch .bvc) .relative, std (.read .eor) .indirectY, none,
    und (.combined .sre) .indirectY, und .nop .zeroPageX, std (.read .eor) .zeroPageX,
    std (.modify .lsr) .zeroPageX, und (.combined .sre) .zeroPageX,
    std (.register .cli) .implied, std (.read .eor) .absoluteY, und .nop .implied,
    und (.combined .sre) .absoluteY, und .nop .absoluteX, std (.read .eor) .absoluteX,
    std (.modify .lsr) .absoluteX, und (.combined .sre) .absoluteX,
    -- $60
    std (.control .rts) .implied, std (.read .adc) .indirectX, none,
    und (.combined .rra) .indirectX, und .nop .zeroPage, std (.read .adc) .zeroPage,
    std (.modify .ror) .zeroPage, und (.combined .rra) .zeroPage, std (.control .pla) .implied,
    std (.read .adc) .immediate, std (.modify .ror) .accumulator, none,
    std (.control .jmp) .indirect, std (.read .adc) .absolute, std (.modify .ror) .absolute,
    und (.combined .rra) .absolute,
    -- $70
    std (.branch .bvs) .relative, std (.read .adc) .indirectY, none,
    und (.combined .rra) .indirectY, und .nop .zeroPageX, std (.read .adc) .zeroPageX,
    std (.modify .ror) .zeroPageX, und (.combined .rra) .zeroPageX,
    std (.register .sei) .implied, std (.read .adc) .absoluteY, und .nop .implied,
    und (.combined .rra) .absoluteY, und .nop .absoluteX, std (.read .adc) .absoluteX,
    std (.modify .ror) .absoluteX, und (.combined .rra) .absoluteX,
    -- $80
    und .nop .immediate, std (.write .sta) .indirectX, und .nop .immediate,
    und (.write .sax) .indirectX, std (.write .sty) .zeroPage, std (.write .sta) .zeroPage,
    std (.write .stx) .zeroPage, und (.write .sax) .zeroPage, std (.register .dey) .implied,
    und .nop .immediate, std (.register .txa) .implied, none, std (.write .sty) .absolute,
    std (.write .sta) .absolute, std (.write .stx) .absolute, und (.write .sax) .absolute,
    -- $90
    std (.branch .bcc) .relative, std (.write .sta) .indirectY, none, none,
    std (.write .sty) .zeroPageX, std (.write .sta) .zeroPageX, std (.write .stx) .zeroPageY,
    und (.write .sax) .zeroPageY, std (.register .tya) .implied, std (.write .sta) .absoluteY,
    std (.register .txs) .implied, none, none, std (.write .sta) .absoluteX, none, none,
    -- $A0
    std (.read .ldy) .immediate, std (.read .lda) .indirectX, std (.read .ldx) .immediate,
    und (.read .lax) .indirectX, std (.read .ldy) .zeroPage, std (.read .lda) .zeroPage,
    std (.read .ldx) .zeroPage, und (.read .lax) .zeroPage, std (.register .tay) .implied,
    std (.read .lda) .immediate, std (.register .tax) .implied, none, std (.read .ldy) .absolute,
    std (.read .lda) .absolute, std (.read .ldx) .absolute, und (.read .lax) .absolute,
    -- $B0
    std (.branch .bcs) .relative, std (.read .lda) .indirectY, none, und (.read .lax) .indirectY,
    std (.read .ldy) .zeroPageX, std (.read .lda) .zeroPageX, std (.read .ldx) .zeroPageY,
    und (.read .lax) .zeroPageY, std (.register .clv) .implied, std (.read .lda) .absoluteY,
    std (.register .tsx) .implied, none, std (.read .ldy) .absoluteX,
    std (.read .lda) .absoluteX, std (.read .ldx) .absoluteY, und (.read .lax) .absoluteY,
    -- $C0
    std (.read .cpy) .immediate, std (.read .cmp) .indirectX, und .nop .immediate,
    und (.combined .dcp) .indirectX, std (.read .cpy) .zeroPage, std (.read .cmp) .zeroPage,
    std (.modify .dec) .zeroPage, und (.combined .dcp) .zeroPage, std (.register .iny) .implied,
    std (.read .cmp) .immediate, std (.register .dex) .implied, none, std (.read .cpy) .absolute,
    std (.read .cmp) .absolute, std (.modify .dec) .absolute, und (.combined .dcp) .absolute,
    -- $D0
    std (.branch .bne) .relative, std (.read .cmp) .indirectY, none,
    und (.combined .dcp) .indirectY, und .nop .zeroPageX, std (.read .cmp) .zeroPageX,
    std (.modify .dec) .zeroPageX, und (.combined .dcp) .zeroPageX,
    std (.register .cld) .implied, std (.read .cmp) .absoluteY, und .nop .implied,
    und (.combined .dcp) .absoluteY, und .nop .absoluteX, std (.read .cmp) .absoluteX,
    std (.modify .dec) .absoluteX, und (.combined .dcp) .absoluteX,
    -- $E0
    std (.read .cpx) .immediate, std (.read .sbc) .indirectX, und .nop .immediate,
    und (.combined .isb) .indirectX, std (.read .cpx) .zeroPage, std (.read .sbc) .zeroPage,
    std (.modify .inc) .zeroPage, und (.combined .isb) .zeroPage, std (.register .inx) .implied,
    std (.read .sbc) .immediate, std .nop .implied, und (.read .sbc) .immediate,
    std (.read .cpx) .absolute, std (.read .sbc) .absolute, std (.modify .inc) .absolute,
    und (.combined .isb) .absolute,
    -- $F0
    std (.branch .beq) .relative, std (.read .sbc) .indirectY, none,
    und (.combined .isb) .indirectY, und .nop .zeroPageX, std (.read .sbc) .zeroPageX,
    std (.modify .inc) .zeroPageX, und (.combined .isb) .zeroPageX,
    std (.register .sed) .implied, std (.read .sbc) .absoluteY, und .nop .implied,
    und (.combined .isb) .absoluteY, und .nop .absoluteX, std (.read .sbc) .absoluteX,
    std (.modify .inc) .absoluteX, und (.combined .isb) .absoluteX
  ], rfl⟩

@[inline] def decode (opcode : UInt8) : Option Instruction :=
  have := opcode.toNat_lt
  table[opcode.toNat]

/-! ### Cycles -/

def readCycles : Mode → Nat
  | .implied | .accumulator | .immediate | .relative => 2
  | .zeroPage => 3
  | .zeroPageX | .zeroPageY | .absolute | .absoluteX | .absoluteY => 4
  | .indirectY | .indirect => 5
  | .indirectX => 6

def writeCycles : Mode → Nat
  | .absoluteX | .absoluteY => 5
  | .indirectY => 6
  | mode => readCycles mode

def modifyCycles : Mode → Nat
  | .accumulator => 2
  | mode => writeCycles mode + 2

def controlCycles : ControlOp → Mode → Nat
  | .jmp, .indirect => 5
  | .jmp, _ => 3
  | .pha, _ | .php, _ => 3
  | .pla, _ | .plp, _ => 4
  | .jsr, _ | .rts, _ | .rti, _ => 6
  | .brk, _ => 7

/-- Cycles taken before any are added for leaving a page or taking a branch. -/
def cycles (i : Instruction) : Nat :=
  match i.operation with
  | .read _ | .nop => readCycles i.mode
  | .write _ => writeCycles i.mode
  | .modify _ | .combined _ => modifyCycles i.mode
  | .register _ | .branch _ => 2
  | .control op => controlCycles op i.mode

/-- Whether leaving the page by indexing costs a cycle. -/
def pagePenalty (i : Instruction) : Bool :=
  match i.operation, i.mode with
  | .read _, .absoluteX | .read _, .absoluteY | .read _, .indirectY => true
  | .nop, .absoluteX | .nop, .absoluteY | .nop, .indirectY => true
  | _, _ => false

end Instruction

end Nes
