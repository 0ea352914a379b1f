import Nes.Cpu.Flags
import Nes.Cpu.Operation

/-!
# Registers

The processor's own state, the cycles it has run included, and the arithmetic that each class of
operations does on it.  Nothing here touches a bus.

`ModifyOp.apply` holds famicore's `asl`, `lsr`, `rol` and `ror`; `addToA` is its `adc` and, of the
complement, its `sbc`; `Flags.compare` is its `compare`.
-/

namespace Nes

structure Registers where
  a : UInt8 := 0
  x : UInt8 := 0
  y : UInt8 := 0
  sp : UInt8 := 0xFD
  pc : UInt16 := 0
  flags : Flags := .initial
  cycles : Nat := 0
deriving DecidableEq, Repr, Inhabited

/-! ### Arithmetic -/

namespace Flags

/-- `a + b` and the carry: the sum, with the carry out, the signed overflow, zero and negative.
The decimal condition has no effect. -/
@[inline] def add (f : Flags) (a b : UInt8) : UInt8 × Flags :=
  let sum := a.toUInt16 + b.toUInt16 + f.carry.toUInt16
  let r := sum.toUInt8
  (r, { f.withZN r with
    carry := sum > 0xFF
    overflow := testBits (~~~(a ^^^ b) &&& (a ^^^ r)) 0x80 })

/-- The conditions of `register - value`, which is not kept. -/
@[inline] def compare (f : Flags) (register value : UInt8) : Flags :=
  { f.withZN (register - value) with carry := register ≥ value }

end Flags

namespace ModifyOp

/-- The changed byte; a shift or rotation also sets the carry to the bit that leaves. -/
def apply (op : ModifyOp) (f : Flags) (v : UInt8) : UInt8 × Flags :=
  match op with
  | inc => (v + 1, f)
  | dec => (v - 1, f)
  | asl => (v <<< 1, { f with carry := testBits v 0x80 })
  | lsr => (v >>> 1, { f with carry := testBits v 0x01 })
  | rol => ((v <<< 1) ||| bitIf f.carry 0x01, { f with carry := testBits v 0x80 })
  | ror => ((v >>> 1) ||| bitIf f.carry 0x80, { f with carry := testBits v 0x01 })

end ModifyOp

namespace Registers

@[inline] def setA (r : Registers) (v : UInt8) : Registers :=
  { r with a := v, flags := r.flags.withZN v }

@[inline] def setX (r : Registers) (v : UInt8) : Registers :=
  { r with x := v, flags := r.flags.withZN v }

@[inline] def setY (r : Registers) (v : UInt8) : Registers :=
  { r with y := v, flags := r.flags.withZN v }

@[inline] def addToA (r : Registers) (v : UInt8) : Registers :=
  match r.flags.add r.a v with
  | (sum, flags) => { r with a := sum, flags := flags }

end Registers

/-- What an operation does with its operand's value.  Subtraction adds the complement. -/
def ReadOp.apply (op : ReadOp) (r : Registers) (v : UInt8) : Registers :=
  match op with
  | lda => r.setA v
  | ldx => r.setX v
  | ldy => r.setY v
  | lax => { r.setA v with x := v }
  | and => r.setA (r.a &&& v)
  | ora => r.setA (r.a ||| v)
  | eor => r.setA (r.a ^^^ v)
  | adc => r.addToA v
  | sbc => r.addToA (v ^^^ 0xFF)
  | cmp => { r with flags := r.flags.compare r.a v }
  | cpx => { r with flags := r.flags.compare r.x v }
  | cpy => { r with flags := r.flags.compare r.y v }
  | bit =>
    { r with
      flags := { r.flags with
        zero := r.a &&& v == 0
        overflow := testBits v 0x40
        negative := testBits v 0x80 } }

def WriteOp.value (op : WriteOp) (r : Registers) : UInt8 :=
  match op with
  | sta => r.a
  | stx => r.x
  | sty => r.y
  | sax => r.a &&& r.x

def RegisterOp.apply (op : RegisterOp) (r : Registers) : Registers :=
  match op with
  | tax => r.setX r.a
  | tay => r.setY r.a
  | txa => r.setA r.x
  | tya => r.setA r.y
  | tsx => r.setX r.sp
  | txs => { r with sp := r.x }
  | inx => r.setX (r.x + 1)
  | iny => r.setY (r.y + 1)
  | dex => r.setX (r.x - 1)
  | dey => r.setY (r.y - 1)
  | clc => { r with flags := { r.flags with carry := false } }
  | sec => { r with flags := { r.flags with carry := true } }
  | cli => { r with flags := { r.flags with interruptDisable := false } }
  | sei => { r with flags := { r.flags with interruptDisable := true } }
  | cld => { r with flags := { r.flags with decimal := false } }
  | sed => { r with flags := { r.flags with decimal := true } }
  | clv => { r with flags := { r.flags with overflow := false } }

def BranchOp.taken (op : BranchOp) (f : Flags) : Bool :=
  match op with
  | bcc => !f.carry
  | bcs => f.carry
  | beq => f.zero
  | bne => !f.zero
  | bmi => f.negative
  | bpl => !f.negative
  | bvc => !f.overflow
  | bvs => f.overflow

end Nes
