import Nes.Word

/-!
# Scroll and address

One pair of words serves as the address of the data register and as the position of the
picture.  `t` gathers what the control, scroll and address registers are given, `v` is in use; the
toggle tells the first write from the second.

`writePosition`, `writeAddress` and `advance` are famicore's `write_scroll`, `write_addr` and
`increment_v`; `writeControl` is what its `write_register` does to `t` at port 0, `clearToggle` is
in its `read_status` and `restart` in its `step`.
-/

namespace Nes

structure Scroll where
  v : UInt16 := 0
  t : UInt16 := 0
  fineX : UInt8 := 0
  second : Bool := false
deriving DecidableEq, Repr, Inhabited

namespace Scroll

/-- The nametable, from the low two bits of the control byte. -/
def writeControl (s : Scroll) (b : UInt8) : Scroll :=
  { s with t := (s.t &&& 0xF3FF) ||| ((b &&& 0x03).toUInt16 * 0x400) }

/-- The horizontal position and then the vertical one. -/
def writePosition (s : Scroll) (b : UInt8) : Scroll :=
  if s.second then
    { s with
      t := (s.t &&& 0x8C1F) ||| ((b &&& 0x07).toUInt16 * 0x1000) ||| ((b &&& 0xF8).toUInt16 * 4)
      second := false }
  else
    { s with
      t := (s.t &&& 0xFFE0) ||| (b / 8).toUInt16
      fineX := b &&& 0x07
      second := true }

/-- The high six bits of an address and then the low eight, which put it into use. -/
def writeAddress (s : Scroll) (b : UInt8) : Scroll :=
  if s.second then
    let t := (s.t &&& 0xFF00) ||| b.toUInt16
    { s with t, v := t, second := false }
  else { s with t := (s.t &&& 0x80FF) ||| ((b &&& 0x3F).toUInt16 * 0x100), second := true }

/-- The address after an access of the data register. -/
def advance (s : Scroll) (step : UInt16) : Scroll := { s with v := (s.v + step) &&& 0x7FFF }

def restart (s : Scroll) : Scroll := { s with v := s.t }

def clearToggle (s : Scroll) : Scroll := { s with second := false }

end Scroll

end Nes
