/-!
# Words of two bytes

Addresses are sixteen bits wide and travel over an eight bit bus as two bytes, the low one
first.  `Word.ofBytes` joins them, `Word.lo` and `Word.hi` take them apart, and the three are
inverse to each other.  The high byte of an address is its page.

famicore joins and splits words so in `read_word`, `push_word` and `pop_word`, and tells in
`indexed` whether an address left its page.
-/

namespace Nes

/-- Whether some bit of `mask` is set in `b`. -/
@[inline] def testBits (b mask : UInt8) : Bool := b &&& mask != 0

/-- The bits of `mask` where the condition holds. -/
@[inline] def bitIf (condition : Bool) (mask : UInt8) : UInt8 := if condition then mask else 0

namespace Word

/-- The word whose low byte is `lo` and whose high byte is `hi`. -/
@[inline] def ofBytes (lo hi : UInt8) : UInt16 := hi.toUInt16 * 256 + lo.toUInt16

@[inline] def lo (w : UInt16) : UInt8 := w.toUInt8

@[inline] def hi (w : UInt16) : UInt8 := (w / 256).toUInt8

theorem toNat_ofBytes (lo hi : UInt8) : (ofBytes lo hi).toNat = hi.toNat * 256 + lo.toNat := by
  have h1 := lo.toNat_lt
  have h2 := hi.toNat_lt
  have h : (256 : UInt16).toNat = 256 := rfl
  simp only [ofBytes, UInt16.toNat_add, UInt16.toNat_mul, UInt8.toNat_toUInt16, h]
  omega

theorem toNat_lo (w : UInt16) : (lo w).toNat = w.toNat % 256 := by
  simp [lo]

theorem toNat_hi (w : UInt16) : (hi w).toNat = w.toNat / 256 := by
  have h1 := w.toNat_lt
  have h : (256 : UInt16).toNat = 256 := rfl
  simp only [hi, UInt16.toNat_toUInt8, UInt16.toNat_div, h]
  omega

@[simp] theorem lo_ofBytes (l h : UInt8) : lo (ofBytes l h) = l := by
  have := l.toNat_lt
  apply UInt8.toNat_inj.1
  rw [toNat_lo, toNat_ofBytes]
  omega

@[simp] theorem hi_ofBytes (l h : UInt8) : hi (ofBytes l h) = h := by
  have := l.toNat_lt
  apply UInt8.toNat_inj.1
  rw [toNat_hi, toNat_ofBytes]
  omega

@[simp] theorem ofBytes_lo_hi (w : UInt16) : ofBytes (lo w) (hi w) = w := by
  apply UInt16.toNat_inj.1
  rw [toNat_ofBytes, toNat_lo, toNat_hi]
  omega

/-! ### Pages -/

@[inline] def crosses (a b : UInt16) : Bool := hi a != hi b

/-- A byte read as a signed displacement, widened to a word. -/
@[inline] def displacement (b : UInt8) : UInt16 :=
  if b < 0x80 then b.toUInt16 else b.toUInt16 + 0xFF00

/-- The address after `w`, taken from the start of the page again at its end. -/
@[inline] def nextInPage (w : UInt16) : UInt16 := ofBytes (lo w + 1) (hi w)

theorem nextInPage_ofBytes (l h : UInt8) : nextInPage (ofBytes l h) = ofBytes (l + 1) h := by
  simp [nextInPage]

end Word

end Nes
