import Nes.Word

/-!
# Hexadecimal numerals

Two capital digits for a byte and four for a word, as listings of machine code show them.  A word
that is expected to lie in page zero is shown in two digits, and in more only if it does not.

famicore formats numbers so in `disassemble`, `format_line` and `run_headless`.
-/

namespace Nes.Hex

/-- The capital digit of the low four bits. -/
def digit (n : UInt8) : Char :=
  let d := n &&& 0x0F
  if d < 10 then Char.ofNat (48 + d.toNat) else Char.ofNat (55 + d.toNat)

def byteChars (b : UInt8) : List Char := [digit (b >>> 4), digit b]

def wordChars (w : UInt16) : List Char := byteChars (Word.hi w) ++ byteChars (Word.lo w)

/-- Two digits, or as many as the word takes. -/
def shortChars (w : UInt16) : List Char :=
  if w < 0x100 then byteChars (Word.lo w)
  else if w < 0x1000 then digit (Word.hi w) :: byteChars (Word.lo w)
  else wordChars w

def byte (b : UInt8) : String := String.ofList (byteChars b)

def word (w : UInt16) : String := String.ofList (wordChars w)

def short (w : UInt16) : String := String.ofList (shortChars w)

theorem length_byteChars (b : UInt8) : (byteChars b).length = 2 := rfl

theorem length_wordChars (w : UInt16) : (wordChars w).length = 4 := rfl

theorem length_byte (b : UInt8) : (byte b).length = 2 := by simp [byte, length_byteChars]

theorem length_word (w : UInt16) : (word w).length = 4 := by simp [word, length_wordChars]

end Nes.Hex
