import Nes.Word

/-!
# Controllers

Eight buttons behind a shift register.  While the strobe is high the register follows the
buttons and every read answers with the first; afterwards reads hand out the eight bits in
order, and then ones.

famicore's `Controller` has the same `latch`, `set_button`, `set_buttons`, `read` and `write`.
-/

namespace Nes

/-- Buttons in the order in which they are handed out. -/
inductive Button
  | a
  | b
  | select
  | start
  | up
  | down
  | left
  | right
deriving DecidableEq, Repr

def Button.mask : Button → UInt8
  | a => 0x01
  | b => 0x02
  | select => 0x04
  | start => 0x08
  | up => 0x10
  | down => 0x20
  | left => 0x40
  | right => 0x80

structure Controller where
  buttons : UInt8 := 0
  shift : UInt8 := 0
  remaining : Nat := 0
  strobe : Bool := false
deriving DecidableEq, Repr, Inhabited

namespace Controller

def latch (c : Controller) : Controller := { c with shift := c.buttons, remaining := 8 }

/-- All eight buttons at once; a high strobe passes them on. -/
def setButtons (c : Controller) (buttons : UInt8) : Controller :=
  let c := { c with buttons }
  if c.strobe then c.latch else c

def setButton (c : Controller) (button : Button) (pressed : Bool) : Controller :=
  c.setButtons (if pressed then c.buttons ||| button.mask else c.buttons &&& ~~~button.mask)

def read (c : Controller) : UInt8 × Controller :=
  if c.strobe then (c.buttons &&& 1, c)
  else if c.remaining = 0 then (1, c)
  else (c.shift &&& 1, { c with shift := c.shift >>> 1, remaining := c.remaining - 1 })

/-- The strobe follows the lowest bit. -/
def write (c : Controller) (v : UInt8) : Controller :=
  let c := { c with strobe := testBits v 1 }
  if c.strobe then c.latch else c

end Controller

end Nes
