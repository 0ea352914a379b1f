import Nes.Bus.Flat
import Nes.Proofs.Cpu.Status
import Nes.Proofs.LittleEndian

/-!
# Sums of long numbers

A program adds and subtracts long numbers byte by byte, from the lowest up, and hands the carry on.
The bytes that it gets are those of the exact sum or difference, and the conditions after the last
byte are those of the whole numbers: the carry, the overflow in two's complement and the sign.  All
of it rests on one equation, that the bytes together with the carry out make up the two addends and
the carry in.  A subtraction adds the complement.
-/

namespace Nes

open LittleEndian

/-! ### One byte -/

theorem testBits_top (b : UInt8) : testBits b 0x80 = b.toBitVec.msb := by
  revert b
  apply forall_byte
  decide +kernel

namespace Flags

variable (f : Flags) (a b : UInt8)

theorem add_exact : (f.add a b).1.toNat + 256 * (f.add a b).2.carry.toNat =
    a.toNat + b.toNat + f.carry.toNat := by
  have ha := a.toNat_lt
  have hb := b.toNat_lt
  have hc := f.carry.toNat_le
  have hcarry : f.carry.toUInt16.toNat = f.carry.toNat := by cases f.carry <;> rfl
  have hsum : (a.toUInt16 + b.toUInt16 + f.carry.toUInt16).toNat =
      a.toNat + b.toNat + f.carry.toNat := by
    simp only [UInt16.toNat_add, UInt8.toNat_toUInt16, hcarry]
    omega
  have hover : (a.toUInt16 + b.toUInt16 + f.carry.toUInt16 > 0xFF) ↔
      255 < a.toNat + b.toNat + f.carry.toNat := by
    rw [gt_iff_lt, UInt16.lt_iff_toNat_lt, hsum]
    rfl
  show (a.toUInt16 + b.toUInt16 + f.carry.toUInt16).toUInt8.toNat +
    256 * (decide (a.toUInt16 + b.toUInt16 + f.carry.toUInt16 > 0xFF)).toNat = _
  rw [UInt16.toNat_toUInt8, hsum, decide_eq_decide.2 hover]
  by_cases h : 255 < a.toNat + b.toNat + f.carry.toNat
  · rw [decide_eq_true h, Bool.toNat_true]
    omega
  · rw [decide_eq_false h, Bool.toNat_false]
    omega

/-- The sum overflows where the addends agree in sign and the sum does not agree with them. -/
theorem overflow_add : (f.add a b).2.overflow =
    (topBit [a] == topBit [b] && topBit [a] != topBit [(f.add a b).1]) := by
  show testBits (~~~(a ^^^ b) &&& (a ^^^ (f.add a b).1)) 0x80 = _
  generalize (f.add a b).1 = sum
  simp only [topBit_singleton, testBits_top, UInt8.toBitVec_and, UInt8.toBitVec_not,
    UInt8.toBitVec_xor, BitVec.msb_and, BitVec.msb_not, BitVec.msb_xor]
  cases a.toBitVec.msb <;> cases b.toBitVec.msb <;> cases sum.toBitVec.msb <;> rfl

end Flags

/-! ### Long sums -/

/-- `zs` is the sum of `xs`, `ys` and a carry, and `f` holds the conditions of its last byte. -/
structure LongSum (carry : Bool) (xs ys zs : List UInt8) (f : Flags) : Prop where
  length_left : xs.length = zs.length
  length_right : ys.length = zs.length
  exact : number zs + 256 ^ zs.length * f.carry.toNat = number xs + number ys + carry.toNat
  overflow : f.overflow = (topBit xs == topBit ys && topBit xs != topBit zs)
  negative : f.negative = topBit zs

namespace LongSum

section Lengths

variable {carry : Bool} {xs ys zs : List UInt8} {f : Flags} (h : LongSum carry xs ys zs f)
  (hne : zs ≠ [])

include h hne

theorem left_ne_nil : xs ≠ [] :=
  List.ne_nil_of_length_pos (h.length_left ▸ List.length_pos_of_ne_nil hne)

theorem right_ne_nil : ys ≠ [] :=
  List.ne_nil_of_length_pos (h.length_right ▸ List.length_pos_of_ne_nil hne)

end Lengths

theorem one (f : Flags) (x y : UInt8) :
    LongSum f.carry [x] [y] [(f.add x y).1] (f.add x y).2 where
  length_left := rfl
  length_right := rfl
  exact := by simpa using f.add_exact x y
  overflow := f.overflow_add x y
  negative := (topBit_singleton _).symm

/-- A byte below, whose carry went in above. -/
theorem more {f g : Flags} {xs ys zs : List UInt8} (x y : UInt8)
    (h : LongSum (f.add x y).2.carry xs ys zs g) (hne : zs ≠ []) :
    LongSum f.carry (x :: xs) (y :: ys) ((f.add x y).1 :: zs) g := by
  have hbyte := f.add_exact x y
  have habove := h.exact
  have hxs := h.left_ne_nil hne
  have hys := h.right_ne_nil hne
  refine ⟨by simp [h.length_left], by simp [h.length_right], ?_, ?_, ?_⟩
  · rw [number_cons, number_cons, number_cons, List.length_cons, Nat.pow_succ, Nat.mul_right_comm]
    omega
  · rw [topBit_cons x hxs, topBit_cons y hys, topBit_cons _ hne, h.overflow]
  · rw [topBit_cons _ hne, h.negative]

variable {carry : Bool} {xs ys zs : List UInt8} {f : Flags} (h : LongSum carry xs ys zs f)

include h

theorem number_sum : number zs = (number xs + number ys + carry.toNat) % 256 ^ zs.length :=
  (of_carry_above h.exact).1

theorem carry_iff :
    f.carry = true ↔ 256 ^ zs.length ≤ number xs + number ys + carry.toNat := by
  rw [(of_carry_above h.exact).2, decide_eq_true_iff]

theorem overflow_iff (hne : zs ≠ []) :
    f.overflow = true ↔ ¬ Fits zs.length (signed xs + signed ys + carry.toNat) := by
  have hexact := h.exact
  have hxlt := number_lt xs
  have hylt := number_lt ys
  have hzlt := number_lt zs
  have hcarry := carry.toNat_le
  have hx := signed_cases (h.left_ne_nil hne)
  have hy := signed_cases (h.right_ne_nil hne)
  have hz := signed_cases hne
  have hout : 256 ^ zs.length * f.carry.toNat = 0 ∨
      256 ^ zs.length * f.carry.toNat = 256 ^ zs.length := by
    cases f.carry
    · exact .inl rfl
    · exact .inr (Nat.mul_one _)
  have hhalf : (2 : Int) ^ (8 * zs.length - 1) = (2 ^ (8 * zs.length - 1) : Nat) := by simp
  have hsize := size_eq hne
  unfold Fits
  rw [h.length_left] at hx hxlt
  rw [h.length_right] at hy hylt
  rw [h.overflow, hhalf]
  generalize 2 ^ (8 * zs.length - 1) = half at *
  generalize 256 ^ zs.length = size at *
  -- by the signs of the addends and of the sum
  rcases hx with ⟨hx, hxs⟩ | ⟨hx, hxs⟩ <;> rcases hy with ⟨hy, hys⟩ | ⟨hy, hys⟩ <;>
    rcases hz with ⟨hz, hzs⟩ | ⟨hz, hzs⟩ <;> rw [hx, hy, hz] <;> simp <;> omega

end LongSum

/-- What the sum or the difference of two `n`-byte numbers leaves: its low bytes, whether it is out
of range in two's complement, and its sign. -/
structure Leaves (n : Nat) (result inSigned : Int) (zs : List UInt8) (f : Flags) : Prop where
  length : zs.length = n
  number : (number zs : Int) = result % 256 ^ n
  overflow : f.overflow = true ↔ ¬ Fits n inSigned
  negative : f.negative = topBit zs

namespace LongSum

variable {carry : Bool} {xs ys zs : List UInt8} {f : Flags}

theorem leaves_sum (h : LongSum carry xs ys zs f) (hne : zs ≠ []) :
    Leaves xs.length (number xs + number ys + carry.toNat)
      (signed xs + signed ys + carry.toNat) zs f := by
  rw [h.length_left]
  refine ⟨rfl, ?_, h.overflow_iff hne, h.negative⟩
  rw [h.number_sum]
  push_cast
  rfl

/-- Adding the complement and the carry takes off the rest of the carry. -/
theorem leaves_difference (h : LongSum carry xs (complement ys) zs f) (hne : zs ≠ []) :
    Leaves xs.length (number xs - number ys - (1 - carry.toNat))
      (signed xs - signed ys - (1 - carry.toNat)) zs f ∧
    (f.carry = true ↔ number ys + (1 - carry.toNat) ≤ number xs) := by
  have hlength : ys.length = zs.length := (List.length_map _).symm.trans h.length_right
  have hcomplement := number_complement ys
  have hys : ys ≠ [] := fun hnil => h.right_ne_nil hne (by rw [hnil]; rfl)
  have hsigned := signed_complement hys
  have hcarry := carry.toNat_le
  have hout := h.carry_iff
  have hover := h.overflow_iff hne
  have hsum := h.number_sum
  rw [hlength] at hcomplement
  rw [h.length_left]
  refine ⟨⟨rfl, ?_, ?_, h.negative⟩, ?_⟩
  · have hmoved : (number xs : Int) - number ys - (1 - carry.toNat) =
        (number xs + number (complement ys) + carry.toNat : Nat) + 256 ^ zs.length * (-1) := by
      have hcast : ((256 : Int) ^ zs.length) = (256 ^ zs.length : Nat) := by simp
      rw [hcast]
      omega
    rw [hmoved, Int.add_mul_emod_self_left, hsum]
    push_cast
    rfl
  · have hmoved : signed xs + (-1 - signed ys) + carry.toNat =
        signed xs - signed ys - (1 - carry.toNat) := by ring
    rw [hover, hsigned, hmoved]
  · rw [hout]
    omega

end LongSum

/-! ### Chains -/

namespace Cpu

variable {β : Type} [Bus β]

/-- Operations on one byte after another, `xs` being what the accumulator holds before each, `ys`
the value of its operand and `zs` what it leaves in the accumulator.  Between two of them anything
may happen that keeps the carry. -/
inductive Chain (op : ReadOp) : Cpu β → List UInt8 → List UInt8 → List UInt8 → Cpu β → Prop
  | one {cpu : Cpu β} {operand : Operand} {y : UInt8} {done : Cpu β} {extra : Nat}
    (hvalue : (cpu.load operand.place).1 = y)
    (hdone : cpu.execute (.read op) operand = (extra, done)) :
    Chain op cpu [cpu.a] [y] [done.a] done
  | more {cpu : Cpu β} {operand : Operand} {y : UInt8} {done : Cpu β} {extra : Nat}
    {next last : Cpu β} {xs ys zs : List UInt8}
    (hvalue : (cpu.load operand.place).1 = y)
    (hdone : cpu.execute (.read op) operand = (extra, done))
    (hcarry : next.flags.carry = done.flags.carry) (hrest : Chain op next xs ys zs last) :
    Chain op cpu (cpu.a :: xs) (y :: ys) (done.a :: zs) last

namespace Chain

variable {op : ReadOp} {cpu last : Cpu β} {xs ys zs : List UInt8}

/-- An operation that adds something made of its operand's value leaves the sum of all of it. -/
theorem longSum (addend : UInt8 → UInt8) (hop : ∀ r v, op.apply r v = r.addToA (addend v))
    (h : Chain op cpu xs ys zs last) :
    zs ≠ [] ∧ LongSum cpu.flags.carry xs (ys.map addend) zs last.flags := by
  have hbyte : ∀ {cpu done : Cpu β} {operand : Operand} {y : UInt8} {extra : Nat},
      (cpu.load operand.place).1 = y → cpu.execute (.read op) operand = (extra, done) →
        done.a = (cpu.flags.add cpu.a (addend y)).1 ∧
          done.flags = (cpu.flags.add cpu.a (addend y)).2 := by
    rintro cpu done operand y extra rfl hdone
    have hregisters : done.toRegisters =
        op.apply (cpu.load operand.place).2.toRegisters (cpu.load operand.place).1 :=
      congrArg (fun result : Nat × Cpu β => result.2.toRegisters) hdone.symm
    rw [registers_load, hop] at hregisters
    exact ⟨congrArg Registers.a hregisters, congrArg Registers.flags hregisters⟩
  induction h with
  | one hvalue hdone =>
    obtain ⟨ha, hflags⟩ := hbyte hvalue hdone
    rw [ha, hflags]
    exact ⟨List.cons_ne_nil _ _, .one _ _ _⟩
  | more hvalue hdone hcarry hrest ih =>
    obtain ⟨ha, hflags⟩ := hbyte hvalue hdone
    obtain ⟨hne, hsum⟩ := ih
    rw [hcarry, hflags] at hsum
    rw [ha]
    exact ⟨List.cons_ne_nil _ _, hsum.more _ _ hne⟩

end Chain

def immediate (v : UInt8) : Operand := { mode := .immediate, lo := v, place := .literal v }

theorem load_immediate (cpu : Cpu β) (v : UInt8) : (cpu.load (immediate v).place).1 = v := rfl

/-- There is a chain over any two numbers of one length, from any conditions. -/
theorem exists_chain (op : ReadOp) (bus : β) {xs ys : List UInt8} (f : Flags)
    (hlength : xs.length = ys.length) (hne : xs ≠ []) :
    ∃ cpu zs last, cpu.flags = f ∧ cpu.bus = bus ∧ Chain op cpu xs ys zs last := by
  induction xs generalizing ys f with
  | nil => exact absurd rfl hne
  | cons x xs ih =>
    obtain ⟨y, ys, rfl⟩ := List.exists_cons_of_length_eq_add_one hlength.symm
    let cpu : Cpu β := ⟨{ a := x, flags := f }, bus⟩
    let done := (cpu.execute (.read op) (immediate y)).2
    by_cases hxs : xs = []
    · subst hxs
      obtain rfl := List.length_eq_zero_iff.1 (Nat.succ.inj hlength).symm
      exact ⟨cpu, [done.a], done, rfl, rfl, .one (cpu.load_immediate y) rfl⟩
    · obtain ⟨next, zs, last, hflags, -, hchain⟩ := ih done.flags (Nat.succ.inj hlength) hxs
      exact ⟨cpu, done.a :: zs, last, rfl, rfl, .more (cpu.load_immediate y) rfl
        (congrArg Flags.carry hflags) hchain⟩

/-- A chain of additions, or of subtractions, leaves the exact sum or difference of the numbers, of
whatever length, with the conditions that belong to it, and it does so under any decimal condition.
There is one over any two numbers. -/
theorem chain_exact (cpu : Cpu β) (xs ys : List UInt8) :
    let carry := cpu.flags.carry.toNat
    (∀ zs last, Chain .adc cpu xs ys zs last →
      Leaves xs.length (number xs + number ys + carry) (signed xs + signed ys + carry) zs
        last.flags ∧
      (last.flags.carry = true ↔ 256 ^ xs.length ≤ number xs + number ys + carry)) ∧
    (∀ zs last, Chain .sbc cpu xs ys zs last →
      Leaves xs.length (number xs - number ys - (1 - carry)) (signed xs - signed ys - (1 - carry))
        zs last.flags ∧
      (last.flags.carry = true ↔ number ys + (1 - carry) ≤ number xs)) ∧
    (xs.length = ys.length → xs ≠ [] → ∀ op f, ∃ start zs last,
      start.flags = f ∧ start.bus = cpu.bus ∧ Chain op start xs ys zs last) := by
  refine ⟨fun zs last h => ?_, fun zs last h => ?_, fun hlength hne op f => ?_⟩
  · obtain ⟨hne, hsum⟩ := h.longSum id fun _ _ => rfl
    rw [List.map_id] at hsum
    have hcarry := hsum.carry_iff
    rw [← hsum.length_left] at hcarry
    exact ⟨hsum.leaves_sum hne, hcarry⟩
  · obtain ⟨hne, hsum⟩ := h.longSum (· ^^^ 0xFF) fun _ _ => rfl
    exact hsum.leaves_difference hne
  · exact exists_chain op cpu.bus f hlength hne

/-- An addition of two bytes under the conditions from before. -/
def addBytes (f : Flags) (a v : UInt8) : Cpu FlatMemory :=
  (execute (.read .adc) (immediate v) ⟨{ a, flags := f }, Memory.filled 0⟩).2

/-- `0x7FFF + 1`, which leaves the range of two bytes in two's complement. -/
theorem chain_exact_at_sign :
    let start : Cpu FlatMemory := ⟨{ a := 0xFF, flags := { decimal := true } }, Memory.filled 0⟩
    let low := addBytes start.flags 0xFF 0x01
    let high := addBytes low.flags 0x7F 0x00
    Chain .adc start [0xFF, 0x7F] [0x01, 0x00] [0x00, 0x80] high ∧
      Leaves 2 0x8000 0x8000 [0x00, 0x80] high.flags ∧ high.flags.overflow = true := by
  intro start low high
  have hlow : low.a = 0x00 ∧ high.a = 0x80 ∧ high.flags.overflow = true := by decide +kernel
  have hplain : (number [0xFF, 0x7F] : Int) + number [0x01, 0x00] + start.flags.carry.toNat =
      0x8000 := by decide +kernel
  have hsigned : signed [0xFF, 0x7F] + signed [0x01, 0x00] + start.flags.carry.toNat = 0x8000 := by
    decide +kernel
  let between : Cpu FlatMemory := ⟨{ a := 0x7F, flags := low.flags }, Memory.filled 0⟩
  have hcarry : between.flags.carry = low.flags.carry := rfl
  have hrest : Chain .adc between [between.a] [0x00] [high.a] high :=
    .one (between.load_immediate 0x00) rfl
  have hchain : Chain .adc start [start.a, between.a] [0x01, 0x00] [low.a, high.a] high :=
    .more (start.load_immediate 0x01) rfl hcarry hrest
  rw [hlow.1, hlow.2.1] at hchain
  have hsum := ((chain_exact _ _ _).1 _ _ hchain).1
  rw [hplain, hsigned] at hsum
  exact ⟨hchain, hsum, hlow.2.2⟩

end Cpu

end Nes
