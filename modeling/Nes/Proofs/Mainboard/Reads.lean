import Nes.Mainboard

/-!
# What a read changes

Memory, the cartridge and the audio latch answer a read and stay as they are.  The status register
and the controllers change, but they only ever answer with `$00`, `$01` or `$80`, each of which is
an instruction.  A byte that is none and whose read changed something therefore came from the data
register, which every read moves on to its next address.
-/

namespace Nes

/-! ### Answers that are instructions -/

theorem bit_eq_zero_or_one (b : UInt8) : b &&& 1 = 0 ∨ b &&& 1 = 1 := by
  have hbit : (b &&& 1).toNat = b.toNat % 2 := by
    rw [UInt8.toNat_and]
    exact Nat.and_one_is_mod b.toNat
  rcases Nat.mod_two_eq_zero_or_one b.toNat with h | h
  · left
    apply UInt8.toNat_inj.1
    rw [hbit, h]
    rfl
  · right
    apply UInt8.toNat_inj.1
    rw [hbit, h]
    rfl

theorem Controller.decode_read (c : Controller) : Instruction.decode c.read.1 ≠ none := by
  have hanswer : c.read.1 = 0 ∨ c.read.1 = 1 := by
    unfold read
    repeat' split
    · exact bit_eq_zero_or_one c.buttons
    · exact .inr rfl
    · exact bit_eq_zero_or_one c.shift
  rcases hanswer with h | h
  · rw [h]
    decide
  · rw [h]
    decide

namespace Ppu

theorem decode_readStatus (ppu : Ppu) : Instruction.decode ppu.readStatus.1 ≠ none := by
  show Instruction.decode (bitIf ppu.vblank 0x80) ≠ none
  cases ppu.vblank <;> decide

theorem decode_readRegister (ppu : Ppu) (board : Board) {number : UInt8} (h : number &&& 7 ≠ 7) :
    Instruction.decode (ppu.readRegister board number).1 ≠ none := by
  unfold readRegister
  split
  · exact ppu.decode_readStatus
  case h_2 hnumber => exact absurd hnumber h
  · exact (by decide : Instruction.decode 0 ≠ none)

end Ppu

/-! ### The data register -/

theorem Scroll.toNat_advance (s : Scroll) (step : UInt16) :
    (s.advance step).v.toNat = (s.v.toNat + step.toNat) % 0x8000 := by
  show ((s.v + step) &&& 0x7FFF).toNat = _
  rw [UInt16.toNat_and, UInt16.toNat_add]
  have hdvd : 0x8000 ∣ 2 ^ 16 := by decide
  exact (Nat.and_two_pow_sub_one_eq_mod _ 15).trans (Nat.mod_mod_of_dvd _ hdvd)

theorem Scroll.advance_ne (s : Scroll) {step : UInt16} (h : step.toNat = 1 ∨ step.toNat = 32) :
    (s.advance step).v ≠ s.v := by
  intro heq
  have hv := s.toNat_advance step
  have hlt := s.v.toNat_lt
  rw [heq] at hv
  omega

namespace Ppu

theorem toNat_dataAddr (ppu : Ppu) : ppu.dataAddr.toNat = ppu.scroll.v.toNat % 0x4000 := by
  unfold dataAddr
  rw [UInt16.toNat_and]
  exact Nat.and_two_pow_sub_one_eq_mod _ 14

theorem toNat_dataStep (ppu : Ppu) : ppu.dataStep.toNat = 1 ∨ ppu.dataStep.toNat = 32 := by
  unfold dataStep
  split
  · exact .inr rfl
  · exact .inl rfl

theorem readData_scroll (ppu : Ppu) (board : Board) :
    (ppu.readData board).2.scroll = ppu.scroll.advance ppu.dataStep := by
  unfold readData
  dsimp only
  split <;> rfl

theorem readData_moves (ppu : Ppu) (board : Board) : (ppu.readData board).2 ≠ ppu := by
  intro heq
  have hv : (ppu.readData board).2.scroll.v = ppu.scroll.v :=
    congrArg (fun p : Ppu => p.scroll.v) heq
  rw [readData_scroll] at hv
  exact ppu.scroll.advance_ne ppu.toNat_dataStep hv

theorem readData_pattern (ppu : Ppu) (board : Board) (h : ppu.dataAddr < 0x2000) :
    ppu.readData board = (ppu.buffer, { ppu with
      scroll := ppu.scroll.advance ppu.dataStep
      buffer := board.ppuRead ppu.dataAddr }) := by
  have hbelow : ppu.dataAddr < 0x3F00 := UInt16.lt_trans h (by decide)
  unfold readData fetch
  dsimp only
  rw [if_pos hbelow, if_pos h]

/-- Reading the data register changes the address in use and the buffered byte. -/
theorem readData_eq (ppu : Ppu) (board : Board) : ∃ v buffer,
    (ppu.readData board).2 = { ppu with scroll := { ppu.scroll with v }, buffer } := by
  unfold readData
  dsimp only
  split
  · exact ⟨_, _, rfl⟩
  · exact ⟨_, _, rfl⟩

/-- A register read leaves alone all but the scroll registers, the buffered byte and the flag that
the status register clears. -/
theorem readRegister_eq (ppu : Ppu) (board : Board) (number : UInt8) : ∃ scroll buffer,
    (ppu.readRegister board number).2 =
      { ppu with scroll, buffer, vblank := ppu.vblank && !(number &&& 7 == 2) } := by
  unfold readRegister
  generalize number &&& 7 = register
  split
  · rw [beq_self_eq_true, Bool.not_true, Bool.and_false]
    exact ⟨_, _, rfl⟩
  · obtain ⟨v, buffer, hread⟩ := ppu.readData_eq board
    refine ⟨{ ppu.scroll with v }, buffer, ?_⟩
    rw [show ((7 : UInt8) == 2) = false from rfl, Bool.not_false, Bool.and_true]
    exact hread
  case h_3 hstatus _ =>
    rw [beq_false_of_ne hstatus, Bool.not_false, Bool.and_true]
    exact ⟨_, _, rfl⟩

end Ppu

namespace Mainboard

/-- The data register and its mirrors. -/
def DataPort (addr : UInt16) : Prop := 0x2000 ≤ addr ∧ addr < 0x4000 ∧ addr % 8 = 7

instance : DecidablePred DataPort :=
  fun addr => inferInstanceAs (Decidable (0x2000 ≤ addr ∧ addr < 0x4000 ∧ addr % 8 = 7))

/-- A register's number by the low bits of an address. -/
theorem lowBits_eq (addr : UInt16) {number : UInt8} {rest : UInt16}
    (h : number.toNat = rest.toNat) : addr.toUInt8 &&& 7 = number ↔ addr % 8 = rest := by
  have hbits : (addr.toUInt8 &&& 7).toNat = addr.toNat % 8 := by
    rw [UInt8.toNat_and, UInt16.toNat_toUInt8]
    exact (Nat.and_two_pow_sub_one_eq_mod _ 3).trans (by omega)
  have hmod : (addr % 8).toNat = addr.toNat % 8 := UInt16.toNat_mod addr 8
  rw [← UInt8.toNat_inj, ← UInt16.toNat_inj, hbits, hmod, h]

theorem ofRead_cartridge {addr : UInt16} (h : 0x6000 ≤ addr) : Owner.ofRead addr = .cartridge := by
  have hlow : 0x6000 ≤ addr.toNat := UInt16.le_iff_toNat_le.1 h
  have hlt : ∀ k : UInt16, k.toNat ≤ 0x6000 → ¬ addr < k := by
    intro k hk hbelow
    have := UInt16.lt_iff_toNat_lt.1 hbelow
    omega
  have hne : ∀ k : UInt16, k.toNat < 0x6000 → ¬ addr = k := by
    rintro k hk rfl
    omega
  unfold Owner.ofRead
  rw [if_neg (hlt _ (by decide)), if_neg (hlt _ (by decide)), if_neg (hlt _ (by decide)),
    if_neg (hne _ (by decide)), if_neg (hne _ (by decide)), if_neg (hlt _ (by decide))]

theorem ofRead_eq_ppu {addr : UInt16} (h : Owner.ofRead addr = .ppu) :
    0x2000 ≤ addr ∧ addr < 0x4000 := by
  unfold Owner.ofRead at h
  repeat' split at h
  case isFalse.isTrue hlow hhigh => exact ⟨UInt16.not_lt.1 hlow, hhigh⟩
  all_goals cases h

theorem ofRead_dataPort {addr : UInt16} (h : DataPort addr) : Owner.ofRead addr = .ppu := by
  have hlow : ¬ addr < 0x2000 := UInt16.not_lt.2 h.1
  unfold Owner.ofRead
  rw [if_neg hlow, if_pos h.2.1]

variable (m : Mainboard AudioLatch)

theorem read_cartridge {addr : UInt16} (h : 0x6000 ≤ addr) :
    Bus.read m addr = (m.cartridge.board.cpuRead addr, m) := by
  show m.read addr = _
  unfold read
  rw [ofRead_cartridge h]

theorem read_dataPort {addr : UInt16} (h : DataPort addr) :
    Bus.read m addr = m.askPpu fun ppu board => ppu.readData board := by
  have hnumber : addr.toUInt8 &&& 7 = 7 := (lowBits_eq addr rfl).2 h.2.2
  show m.read addr = _
  unfold read
  rw [ofRead_dataPort h]
  dsimp only
  unfold Ppu.readRegister
  rw [hnumber]
  rfl

/-- The mainboard after a read of the data register that fetched a byte of the patterns. -/
def fetchPattern : Mainboard AudioLatch :=
  { m with ppu := { m.ppu with
      scroll := m.ppu.scroll.advance m.ppu.dataStep
      buffer := m.cartridge.board.ppuRead m.ppu.dataAddr } }

theorem read_dataPort_pattern {addr : UInt16} (h : DataPort addr) (hv : m.ppu.dataAddr < 0x2000) :
    Bus.read m addr = (m.ppu.buffer, m.fetchPattern) := by
  rw [m.read_dataPort h]
  unfold askPpu
  dsimp only
  rw [m.ppu.readData_pattern m.cartridge.board hv]
  rfl

theorem read_dataPort_ne {addr : UInt16} (h : DataPort addr) : (Bus.read m addr).2 ≠ m := by
  intro heq
  rw [m.read_dataPort h] at heq
  exact m.ppu.readData_moves m.cartridge.board (congrArg Mainboard.ppu heq)

/-- A byte that is no instruction was read without effect, but for the data register. -/
theorem read_of_unmapped {addr : UInt16} (hport : ¬ DataPort addr)
    (h : Instruction.decode (Bus.read m addr).1 = none) : (Bus.read m addr).2 = m := by
  have hread : Bus.read m addr = m.read addr := rfl
  rw [hread] at h ⊢
  unfold read at h ⊢
  cases howner : Owner.ofRead addr with
  | ppu =>
    rw [howner] at h
    obtain ⟨hlow, hhigh⟩ := ofRead_eq_ppu howner
    have hnumber : addr.toUInt8 &&& 7 ≠ 7 := fun hseven =>
      hport ⟨hlow, hhigh, (lowBits_eq addr rfl).1 hseven⟩
    exact absurd h (m.ppu.decode_readRegister m.cartridge.board hnumber)
  | pad1 =>
    rw [howner] at h
    exact absurd h m.pad1.decode_read
  | pad2 =>
    rw [howner] at h
    exact absurd h m.pad2.decode_read
  | _ => rfl

end Mainboard

end Nes
