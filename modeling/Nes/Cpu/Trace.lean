import Nes.Cpu

/-!
# Trace lines

One line per instruction, in columns: its address, its bytes, its assembler text with the
address that it reached, and the registers before it ran.  Operands are shown as resolved and
never read again, since a read can change a device.

`line` is famicore's `format_line`, `disassemble` its `disassemble` and `Snapshot` the `Registers`
that it shows.
-/

namespace Nes.Trace

/-- The text with blanks after it up to `width` characters. -/
def padRight (width : Nat) (text : String) : String :=
  text ++ String.ofList (List.replicate (width - text.length) ' ')

theorem length_padRight (width : Nat) (text : String) :
    (padRight width text).length = max width text.length := by
  simp only [padRight, String.length_append, String.length_ofList, List.length_replicate]
  omega

/-- The operand in assembler syntax, after a blank, with the address that it reached. -/
def operandText (o : Operand) : String :=
  let addr := o.addr?.getD 0
  let base := o.base.getD 0
  let lo := Hex.byte o.lo
  match o.mode with
  | .implied => ""
  | .accumulator => " A"
  | .immediate => " #$" ++ lo
  | .zeroPage => " $" ++ Hex.short addr
  | .zeroPageX => " $" ++ lo ++ ",X @ " ++ Hex.short addr
  | .zeroPageY => " $" ++ lo ++ ",Y @ " ++ Hex.short addr
  | .absolute | .relative => " $" ++ Hex.word addr
  | .absoluteX => " $" ++ Hex.word base ++ ",X @ " ++ Hex.word addr
  | .absoluteY => " $" ++ Hex.word base ++ ",Y @ " ++ Hex.word addr
  | .indirect => " ($" ++ Hex.word base ++ ") = " ++ Hex.word addr
  | .indirectX =>
    " ($" ++ lo ++ ",X) @ " ++ Hex.short base ++ " = " ++ Hex.word addr
  | .indirectY => " ($" ++ lo ++ "),Y = " ++ Hex.word base ++ " @ " ++ Hex.word addr

def disassemble (operation : Operation) (o : Operand) : String :=
  operation.mnemonic ++ operandText o

def byteColumn (opcode : UInt8) (o : Operand) : String :=
  o.bytes.foldl (fun text b => text ++ " " ++ Hex.byte b) (Hex.byte opcode)

/-- The registers as a line shows them, the status as a byte. -/
structure Snapshot where
  pc : UInt16
  a : UInt8
  x : UInt8
  y : UInt8
  p : UInt8
  sp : UInt8
  cycles : Nat
deriving DecidableEq, Repr

def Snapshot.of (r : Registers) : Snapshot := ⟨r.pc, r.a, r.x, r.y, r.flags.toByte, r.sp, r.cycles⟩

def registerColumn (s : Snapshot) : String :=
  "A:" ++ Hex.byte s.a ++ " X:" ++ Hex.byte s.x ++ " Y:" ++ Hex.byte s.y ++ " P:" ++ Hex.byte s.p ++
    " SP:" ++ Hex.byte s.sp ++ " CYC:" ++ toString s.cycles

/-- The line of a fetched instruction; a star marks an opcode that is not documented. -/
def line (f : Fetched) (s : Snapshot) : String :=
  Hex.word s.pc ++ "  " ++ padRight 8 (byteColumn f.opcode f.operand) ++ " " ++
    (if f.instruction.documented then " " else "*") ++
    padRight 31 (disassemble f.instruction.operation f.operand) ++ " " ++ registerColumn s

end Nes.Trace
