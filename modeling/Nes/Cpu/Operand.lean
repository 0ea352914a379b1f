import Nes.Bus
import Nes.Cpu.Mode

/-!
# Operands

Resolving an operand reads the bytes after the opcode, and the pointer where the mode has one,
and settles where the operand is.  The operand itself is not read: an instruction that only
stores must not touch the cell it stores to.

`Operand.resolve` is famicore's `resolve`, `Operand.indexed` the `indexed` of its `Operand` and
`Operand.bytes` its `raw_bytes`.
-/

namespace Nes

inductive Place
  | accumulator
  | literal (value : UInt8)
  | memory (addr : UInt16)
deriving DecidableEq, Repr

/-- A resolved operand.  `base` is the address before indexing, or that of the pointer. -/
structure Operand where
  mode : Mode
  lo : UInt8 := 0
  hi : UInt8 := 0
  place : Place := .accumulator
  base : Option UInt16 := none
  crossed : Bool := false
deriving DecidableEq, Repr

namespace Operand

/-- The address of the operand, or the target of a jump or branch. -/
def addr? (o : Operand) : Option UInt16 :=
  match o.place with
  | .memory addr => some addr
  | _ => none

def bytes (o : Operand) : List UInt8 := [o.lo, o.hi].take o.mode.operandLength

/-- An operand `offset` away from `base`, the address wrapping at the end of memory. -/
@[inline] def indexed (mode : Mode) (lo hi : UInt8) (base offset : UInt16) : Operand where
  mode := mode
  lo := lo
  hi := hi
  place := .memory (base + offset)
  base := some base
  crossed := Word.crosses base (base + offset)

variable {β : Type} [Bus β]

@[specialize] def ofByte (bus : β) (mode : Mode) (next : UInt16) (x y lo : UInt8) : Operand × β :=
  match mode with
  | .zeroPage => ({ mode, lo, place := .memory lo.toUInt16 }, bus)
  | .zeroPageX =>
    ({ mode, lo, place := .memory (lo + x).toUInt16, base := some lo.toUInt16 }, bus)
  | .zeroPageY =>
    ({ mode, lo, place := .memory (lo + y).toUInt16, base := some lo.toUInt16 }, bus)
  | .indirectX =>
    match Bus.indexedIndirect bus lo x with
    | (addr, bus) =>
      ({ mode, lo, place := .memory addr, base := some (lo + x).toUInt16 }, bus)
  | .indirectY =>
    match Bus.indirectIndexed bus lo y with
    | ((_, base), bus) => (indexed mode lo 0 base y.toUInt16, bus)
  | .relative => (indexed mode lo 0 next (Word.displacement lo), bus)
  | mode => ({ mode, lo, place := .literal lo }, bus)

@[specialize] def ofBytes (bus : β) (mode : Mode) (x y lo hi : UInt8) : Operand × β :=
  let word := Word.ofBytes lo hi
  match mode with
  | .absoluteX => (indexed mode lo hi word x.toUInt16, bus)
  | .absoluteY => (indexed mode lo hi word y.toUInt16, bus)
  | .indirect =>
    match Bus.readInPage bus word with
    | (target, bus) => ({ mode, lo, hi, place := .memory target, base := some word }, bus)
  | mode => ({ mode, lo, hi, place := .memory word }, bus)

/-- The operand whose bytes start at `addr`. -/
@[specialize] def resolve (bus : β) (addr : UInt16) (x y : UInt8) (mode : Mode) : Operand × β :=
  match mode.operandLength with
  | 0 => ({ mode }, bus)
  | 1 =>
    match Bus.read bus addr with
    | (lo, bus) => ofByte bus mode (addr + 1) x y lo
  | _ =>
    match Bus.read bus addr with
    | (lo, bus) =>
      match Bus.read bus (addr + 1) with
      | (hi, bus) => ofBytes bus mode x y lo hi

end Operand

end Nes
