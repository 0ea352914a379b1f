import Mathlib.Data.Nat.Digits.Defs
import Nes.Proofs.Byte

/-!
# Numbers of several bytes

Programs keep a long number as bytes, the lowest first.  Read without a sign `n` bytes stand for a
number below `256 ^ n`; in two's complement they stand for the number next to zero that has the same
remainder, which is negative where the highest bit is set.
-/

namespace Nes.LittleEndian

/-- The number that the bytes stand for. -/
def number (bytes : List UInt8) : Nat := Nat.ofDigits 256 (bytes.map UInt8.toNat)

/-- The number that the bytes stand for in two's complement. -/
def signed (bytes : List UInt8) : Int := (number bytes : Int).bmod (256 ^ bytes.length)

def topBit (bytes : List UInt8) : Bool := (number bytes).testBit (8 * bytes.length - 1)

/-- The numbers that `n` bytes stand for in two's complement. -/
def Fits (n : Nat) (v : Int) : Prop := -2 ^ (8 * n - 1) ≤ v ∧ v < 2 ^ (8 * n - 1)

variable (bytes rest : List UInt8) (b : UInt8)

@[simp] theorem number_nil : number [] = 0 := rfl

@[simp] theorem number_cons : number (b :: rest) = b.toNat + 256 * number rest := Nat.ofDigits_cons

theorem number_append :
    number (bytes ++ rest) = number bytes + 256 ^ bytes.length * number rest := by
  unfold number
  rw [List.map_append, Nat.ofDigits_append, List.length_map]

theorem number_concat : number (bytes ++ [b]) = number bytes + 256 ^ bytes.length * b.toNat := by
  rw [number_append, number_cons, number_nil, Nat.mul_zero, Nat.add_zero]

theorem number_lt : number bytes < 256 ^ bytes.length := by
  have hdigits : ∀ d ∈ bytes.map UInt8.toNat, d < 256 := by
    simpa using fun b _ => b.toNat_lt
  have hlt := Nat.ofDigits_lt_base_pow_length (by decide) hdigits
  rwa [List.length_map] at hlt

/-- Bytes are told by their number. -/
theorem eq_of_number {bytes rest : List UInt8} (hlength : bytes.length = rest.length)
    (h : number bytes = number rest) : bytes = rest := by
  have hdigits : ∀ bytes : List UInt8, ∀ d ∈ bytes.map UInt8.toNat, d < 256 := by
    simpa using fun bytes b _ => b.toNat_lt
  have hmap := Nat.ofDigits_inj_of_len_eq (by decide) (by simpa using hlength) (hdigits bytes)
    (hdigits rest) h
  exact List.map_injective_iff.2 (fun _ _ => UInt8.toNat_inj.1) hmap

/-! ### A carry beside the number -/

section Carry

variable {bytes rest : List UInt8} {carry other : Bool} {word : Nat}

theorem of_carry_above (h : number bytes + 256 ^ bytes.length * carry.toNat = word) :
    number bytes = word % 256 ^ bytes.length ∧ carry = decide (256 ^ bytes.length ≤ word) := by
  have hlt := number_lt bytes
  subst h
  cases carry with
  | false =>
    rw [Bool.toNat_false, Nat.mul_zero, Nat.add_zero]
    exact ⟨(Nat.mod_eq_of_lt hlt).symm, (decide_eq_false (Nat.not_le.2 hlt)).symm⟩
  | true =>
    rw [Bool.toNat_true, Nat.mul_one, Nat.add_mod_right]
    exact ⟨(Nat.mod_eq_of_lt hlt).symm, (decide_eq_true (Nat.le_add_left _ _)).symm⟩

theorem of_carry_below (h : 2 * number bytes + carry.toNat = word) :
    number bytes = word / 2 ∧ carry = word.testBit 0 := by
  subst h
  rw [Nat.testBit_zero]
  cases carry with
  | false =>
    rw [Bool.toNat_false]
    exact ⟨by omega, (decide_eq_false (by omega)).symm⟩
  | true =>
    rw [Bool.toNat_true]
    exact ⟨by omega, (decide_eq_true (by omega)).symm⟩

theorem eq_of_carry_above (hlength : bytes.length = rest.length)
    (h : number bytes + 256 ^ bytes.length * carry.toNat =
      number rest + 256 ^ rest.length * other.toNat) : bytes = rest ∧ carry = other := by
  obtain ⟨hnumber, hcarry⟩ := of_carry_above h
  obtain ⟨hrest, hother⟩ := of_carry_above (Eq.refl (number rest + 256 ^ rest.length * other.toNat))
  rw [hlength] at hnumber hcarry
  exact ⟨eq_of_number hlength (hnumber.trans hrest.symm), hcarry.trans hother.symm⟩

theorem eq_of_carry_below (hlength : bytes.length = rest.length)
    (h : 2 * number bytes + carry.toNat = 2 * number rest + other.toNat) :
    bytes = rest ∧ carry = other := by
  obtain ⟨hnumber, hcarry⟩ := of_carry_below h
  obtain ⟨hrest, hother⟩ := of_carry_below (Eq.refl (2 * number rest + other.toNat))
  exact ⟨eq_of_number hlength (hnumber.trans hrest.symm), hcarry.trans hother.symm⟩

end Carry

/-! ### The highest bit -/

section TopBit

variable {bytes rest : List UInt8}

theorem size_eq (h : bytes ≠ []) : 256 ^ bytes.length = 2 * 2 ^ (8 * bytes.length - 1) := by
  have hpos := List.length_pos_of_ne_nil h
  rw [← Nat.pow_succ', show (256 : Nat) = 2 ^ 8 from rfl, ← Nat.pow_mul]
  congr 1
  omega

theorem topBit_eq (h : bytes ≠ []) :
    topBit bytes = decide (2 ^ (8 * bytes.length - 1) ≤ number bytes) := by
  have hlt := number_lt bytes
  have hpos := Nat.two_pow_pos (8 * bytes.length - 1)
  rw [size_eq h] at hlt
  unfold topBit
  rw [Nat.testBit_eq_decide_div_mod_eq, decide_eq_decide,
    Nat.mod_eq_of_lt (Nat.div_lt_of_lt_mul (by omega)), Nat.div_eq_iff hpos]
  omega

theorem topBit_singleton (b : UInt8) : topBit [b] = testBits b 0x80 := by
  revert b
  apply forall_byte
  decide +kernel

/-- The highest bit is the last byte's. -/
theorem topBit_cons (b : UInt8) (h : rest ≠ []) : topBit (b :: rest) = topBit rest := by
  have hb := b.toNat_lt
  have hpos := List.length_pos_of_ne_nil h
  have hhalf : 2 ^ (8 * (b :: rest).length - 1) = 256 * 2 ^ (8 * rest.length - 1) := by
    rw [show (256 : Nat) = 2 ^ 8 from rfl, ← Nat.pow_add]
    congr 1
    rw [List.length_cons]
    omega
  rw [topBit_eq h, topBit_eq (List.cons_ne_nil b rest), hhalf, number_cons, decide_eq_decide]
  omega

/-- Both readings of `n` bytes, which part at half of `256 ^ n`. -/
theorem signed_cases (h : bytes ≠ []) :
    topBit bytes = false ∧ number bytes < 2 ^ (8 * bytes.length - 1) ∧
      signed bytes = number bytes ∨
    topBit bytes = true ∧ 2 ^ (8 * bytes.length - 1) ≤ number bytes ∧
      signed bytes = number bytes - (256 ^ bytes.length : Nat) := by
  have hlt := number_lt bytes
  have hremainder : (number bytes : Int) % (256 ^ bytes.length : Nat) = number bytes :=
    Int.emod_eq_of_lt (Int.natCast_nonneg _) (Int.ofNat_lt.2 hlt)
  have hhalf :
      (((256 ^ bytes.length : Nat) : Int) + 1) / 2 = (2 ^ (8 * bytes.length - 1) : Nat) := by
    rw [size_eq h]
    omega
  unfold signed Int.bmod
  rw [hremainder, hhalf, topBit_eq h]
  by_cases htop : 2 ^ (8 * bytes.length - 1) ≤ number bytes
  · exact .inr ⟨decide_eq_true htop, htop, if_neg (by omega)⟩
  · exact .inl ⟨decide_eq_false htop, Nat.not_le.1 htop, if_pos (by omega)⟩

end TopBit

/-! ### The complement -/

/-- Every bit turned over. -/
def complement (bytes : List UInt8) : List UInt8 := bytes.map (· ^^^ 0xFF)

theorem toNat_xor_ones (b : UInt8) : (b ^^^ 0xFF).toNat + b.toNat = 255 := by
  revert b
  apply forall_byte
  decide +kernel

theorem number_complement (bytes : List UInt8) :
    number (complement bytes) + number bytes + 1 = 256 ^ bytes.length := by
  induction bytes with
  | nil => rfl
  | cons b rest ih =>
    have hb := toNat_xor_ones b
    show number ((b ^^^ 0xFF) :: complement rest) + number (b :: rest) + 1 = _
    rw [number_cons, number_cons, List.length_cons, Nat.pow_succ, ← ih]
    omega

theorem topBit_complement {bytes : List UInt8} (h : bytes ≠ []) :
    topBit (complement bytes) = !topBit bytes := by
  have hlength : (complement bytes).length = bytes.length := List.length_map _
  have hne : complement bytes ≠ [] := mt List.map_eq_nil_iff.1 h
  have hsum := number_complement bytes
  rw [size_eq h] at hsum
  rw [topBit_eq hne, topBit_eq h, hlength, ← decide_not, decide_eq_decide]
  omega

theorem signed_complement {bytes : List UInt8} (h : bytes ≠ []) :
    signed (complement bytes) = -1 - signed bytes := by
  have hlength : (complement bytes).length = bytes.length := List.length_map _
  have hne : complement bytes ≠ [] := mt List.map_eq_nil_iff.1 h
  have hsum := number_complement bytes
  have htop := topBit_complement h
  have hturned := signed_cases hne
  rw [htop, hlength] at hturned
  rcases signed_cases h with ⟨hbit, -, heq⟩ | ⟨hbit, -, heq⟩
  · rw [hbit] at hturned
    simp only [Bool.not_false, Bool.true_eq_false, false_and, false_or, true_and] at hturned
    omega
  · rw [hbit] at hturned
    simp only [Bool.not_true, Bool.false_eq_true, false_and, or_false, true_and] at hturned
    omega

end Nes.LittleEndian
