import Nes.Bus

/-!
# Recorded buses

A bus together with the accesses made through it, in order.  Recording changes no answer of the
bus behind it.
-/

namespace Nes

/-- One access of a bus and the byte that went over it. -/
inductive Access
  | read (addr : UInt16) (value : UInt8)
  | write (addr : UInt16) (value : UInt8)
deriving DecidableEq, Repr

/-- A bus that keeps the list of its accesses. -/
structure Recorded (β : Type) where
  device : β
  accesses : Array Access

namespace Recorded

variable {β : Type} [Bus β]

def start (device : β) : Recorded β := ⟨device, #[]⟩

instance : Bus (Recorded β) where
  read bus addr :=
    match bus with
    | ⟨device, accesses⟩ =>
      match Bus.read device addr with
      | (value, device) => (value, ⟨device, accesses.push (.read addr value)⟩)
  write bus addr value :=
    match bus with
    | ⟨device, accesses⟩ =>
      ⟨Bus.write device addr value, accesses.push (.write addr value)⟩

@[simp] theorem device_read (bus : Recorded β) (addr : UInt16) :
    (Bus.read bus addr).2.device = (Bus.read bus.device addr).2 := rfl

@[simp] theorem value_read (bus : Recorded β) (addr : UInt16) :
    (Bus.read bus addr).1 = (Bus.read bus.device addr).1 := rfl

@[simp] theorem accesses_read (bus : Recorded β) (addr : UInt16) :
    (Bus.read bus addr).2.accesses =
      bus.accesses.push (.read addr (Bus.read bus.device addr).1) := rfl

@[simp] theorem device_write (bus : Recorded β) (addr : UInt16) (value : UInt8) :
    (Bus.write bus addr value).device = Bus.write bus.device addr value := rfl

@[simp] theorem accesses_write (bus : Recorded β) (addr : UInt16) (value : UInt8) :
    (Bus.write bus addr value).accesses = bus.accesses.push (.write addr value) := rfl

end Recorded

end Nes
