import Nes.Hex
import Nes.Proofs.Byte

/-!
# Numerals read back

The digits of a byte or a word tell the number, and their count is fixed.  A text that starts with
such a numeral therefore splits into numeral and rest in one way only.
-/

namespace Nes

theorem append_inj_of_length {s t u v : String} (h : s ++ u = t ++ v) (hlen : s.length = t.length) :
    s = t ∧ u = v := by
  have hchars : s.toList ++ u.toList = t.toList ++ v.toList := by
    rw [← String.toList_append, ← String.toList_append, h]
  obtain ⟨hs, hu⟩ := List.append_inj hchars (by simpa only [String.length_toList] using hlen)
  exact ⟨String.toList_inj.1 hs, String.toList_inj.1 hu⟩

namespace Hex

/-- The number that a capital digit stands for. -/
def value (c : Char) : UInt8 :=
  if c.isDigit then (c.toNat - 48).toUInt8 else (c.toNat - 55).toUInt8

/-- The byte that two digits stand for. -/
def readByte : List Char → UInt8
  | [high, low] => value high <<< 4 ||| value low
  | _ => 0

theorem readByte_byteChars (b : UInt8) : readByte (byteChars b) = b := by
  revert b
  apply forall_byte
  decide +kernel

theorem byteChars_inj {a b : UInt8} : byteChars a = byteChars b ↔ a = b :=
  (Function.LeftInverse.injective readByte_byteChars).eq_iff

theorem wordChars_inj {v w : UInt16} : wordChars v = wordChars w ↔ v = w := by
  constructor
  · intro h
    obtain ⟨hhi, hlo⟩ := List.append_inj h rfl
    rw [← Word.ofBytes_lo_hi v, ← Word.ofBytes_lo_hi w, byteChars_inj.1 hhi, byteChars_inj.1 hlo]
  · intro h
    rw [h]

@[simp] theorem byte_append_inj {a b : UInt8} {s t : String} :
    byte a ++ s = byte b ++ t ↔ a = b ∧ s = t := by
  constructor
  · intro h
    obtain ⟨hbyte, hrest⟩ := append_inj_of_length h (by rw [length_byte, length_byte])
    exact ⟨byteChars_inj.1 (String.ofList_injective hbyte), hrest⟩
  · rintro ⟨rfl, rfl⟩
    rfl

@[simp] theorem word_append_inj {v w : UInt16} {s t : String} :
    word v ++ s = word w ++ t ↔ v = w ∧ s = t := by
  constructor
  · intro h
    obtain ⟨hword, hrest⟩ := append_inj_of_length h (by rw [length_word, length_word])
    exact ⟨wordChars_inj.1 (String.ofList_injective hword), hrest⟩
  · rintro ⟨rfl, rfl⟩
    rfl

/-- An address in page zero takes two digits. -/
theorem length_short {w : UInt16} (h : w < 0x100) : (short w).length = 2 := by
  simp [short, shortChars, h, length_byteChars]

end Hex

end Nes
