/-!
# Addressing modes

How an instruction names what it works on, and the number of operand bytes that follow its
opcode.

`operandLength` is famicore's `operand_len`.
-/

namespace Nes

inductive Mode
  | implied
  | accumulator
  | immediate
  | zeroPage
  | zeroPageX
  | zeroPageY
  | absolute
  | absoluteX
  | absoluteY
  | indirect
  | indirectX
  | indirectY
  | relative
deriving DecidableEq, Repr

/-- Operand bytes after the opcode. -/
def Mode.operandLength : Mode → Nat
  | implied | accumulator => 0
  | immediate | zeroPage | zeroPageX | zeroPageY | indirectX | indirectY | relative => 1
  | absolute | absoluteX | absoluteY | indirect => 2

end Nes
