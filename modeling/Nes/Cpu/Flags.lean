import Nes.Word

/-!
# The status byte

Seven conditions are kept as such and become the status byte `NV1BDIZC` only when it is pushed
or shown; its bit 5 is always set.  Only pushed copies tell what pushed them, by bit 4, and a
pulled copy loses that bit.

`ofByte`, `toByte`, `pushed`, `pulled` and `withZN` are famicore's `from_bits`, `bits`,
`to_stack`, `from_stack` and `set_zn`.
-/

namespace Nes

/-- The conditions that the processor keeps. -/
structure Flags where
  carry : Bool := false
  zero : Bool := false
  interruptDisable : Bool := false
  decimal : Bool := false
  breakCommand : Bool := false
  overflow : Bool := false
  negative : Bool := false
deriving DecidableEq, Repr, Inhabited

namespace Flags

def ofByte (b : UInt8) : Flags where
  carry := testBits b 0x01
  zero := testBits b 0x02
  interruptDisable := testBits b 0x04
  decimal := testBits b 0x08
  breakCommand := testBits b 0x10
  overflow := testBits b 0x40
  negative := testBits b 0x80

/-- The copy that is pushed; `software` tells an instruction from an interrupt line. -/
def pushed (f : Flags) (software : Bool) : UInt8 :=
  bitIf f.carry 0x01 ||| bitIf f.zero 0x02 ||| bitIf f.interruptDisable 0x04 |||
    bitIf f.decimal 0x08 ||| bitIf software 0x10 ||| 0x20 ||| bitIf f.overflow 0x40 |||
    bitIf f.negative 0x80

def toByte (f : Flags) : UInt8 := f.pushed f.breakCommand

def pulled (b : UInt8) : Flags := { ofByte b with breakCommand := false }

@[inline] def withZN (f : Flags) (result : UInt8) : Flags :=
  { f with zero := result == 0, negative := testBits result 0x80 }

/-- The state after a reset: interrupts off and nothing else. -/
def initial : Flags := { interruptDisable := true }

theorem ofByte_pushed (f : Flags) (software : Bool) :
    ofByte (f.pushed software) = { f with breakCommand := software } := by
  rcases f with ⟨_ | _, _ | _, _ | _, _ | _, _ | _, _ | _, _ | _⟩ <;> cases software <;> decide

theorem pulled_pushed (f : Flags) (software : Bool) :
    pulled (f.pushed software) = { f with breakCommand := false } := by
  rw [pulled, ofByte_pushed]

end Flags

end Nes
