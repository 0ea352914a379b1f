import Nes.Proofs.Byte
import Nes.Proofs.Ppu.Representation

/-!
# The data register as a memory

From `$2000` on, the picture unit's address space is read back through the data register as it was
written through it.  Below the palette an address stands for itself alone; in the palette those
stand for one cell that agree modulo 32 once the first of each upper four is folded down.  Palette
reads answer at once and all others one read late, so that the byte below the palette is lost to a
read that comes after the address has moved on into it.
-/

namespace Nes

/-! ### An address given in two bytes -/

namespace Word

theorem or_eq_ofBytes (low high : UInt8) :
    high.toUInt16 * 0x100 ||| low.toUInt16 = ofBytes low high := by
  have hlow := low.toNat_lt
  have hhigh := high.toNat_lt
  apply UInt16.toNat_inj.1
  rw [toNat_ofBytes, UInt16.toNat_or, UInt16.toNat_mul, UInt8.toNat_toUInt16, UInt8.toNat_toUInt16]
  have hmoved : high.toNat * (0x100 : UInt16).toNat % 2 ^ 16 = 2 ^ 8 * high.toNat := by
    show high.toNat * 256 % 2 ^ 16 = 2 ^ 8 * high.toNat
    omega
  rw [hmoved, ← Nat.two_pow_add_eq_or_of_lt (by exact hlow)]
  omega

end Word

namespace Scroll

theorem or_and (a b mask : UInt16) : (a ||| b) &&& mask = (a &&& mask) ||| (b &&& mask) := by
  apply UInt16.toNat_inj.1
  simp only [UInt16.toNat_and, UInt16.toNat_or]
  exact Nat.and_or_distrib_right _ _ _

theorem top_clear {t : UInt16} (h : t < 0x8000) : t &&& 0x8000 = 0 := by
  apply UInt16.toNat_inj.1
  rw [UInt16.toNat_and]
  apply Nat.eq_of_testBit_eq
  intro i
  have hbit := Nat.testBit_lt_two_pow (i := 15) (UInt16.lt_iff_toNat_lt.1 h)
  show (t.toNat &&& 2 ^ 15).testBit i = Nat.testBit 0 i
  rw [Nat.testBit_and, Nat.testBit_two_pow, Nat.zero_testBit]
  by_cases hi : 15 = i
  · rw [← hi, hbit, Bool.false_and]
  · rw [decide_eq_false hi, Bool.and_false]

/-- Of the gathered position nothing is left beside the high byte of an address. -/
theorem high_replaced {t : UInt16} (h : t < 0x8000) (high : UInt8) :
    ((t &&& 0x80FF) ||| (high &&& 0x3F).toUInt16 * 0x100) &&& 0xFF00 =
      (high &&& 0x3F).toUInt16 * 0x100 := by
  have hkept : (high &&& 0x3F).toUInt16 * 0x100 &&& 0xFF00 = (high &&& 0x3F).toUInt16 * 0x100 := by
    revert high
    apply forall_byte
    decide +kernel
  have htop : t &&& 0x80FF &&& 0xFF00 = 0 := by
    rw [UInt16.and_assoc]
    exact top_clear h
  rw [or_and, hkept, htop, UInt16.zero_or]

theorem address_pair {s : Scroll} (h : s.Valid) (hfirst : s.second = false) (high low : UInt8) :
    (s.writeAddress high).writeAddress low =
      { s with v := Word.ofBytes low (high &&& 0x3F), t := Word.ofBytes low (high &&& 0x3F) } := by
  have hjoined : ((s.t &&& 0x80FF) ||| (high &&& 0x3F).toUInt16 * 0x100) &&& 0xFF00 |||
      low.toUInt16 = Word.ofBytes low (high &&& 0x3F) := by
    rw [high_replaced h.t, Word.or_eq_ofBytes]
  simp only [writeAddress, hfirst, Bool.false_eq_true, ite_false, ite_true, hjoined]

end Scroll

namespace Ppu

/-! ### Aliases -/

/-- Two addresses of one byte. -/
def Alias (a b : UInt16) : Prop :=
  a = b ∨ 0x3F00 ≤ a ∧ 0x3F00 ≤ b ∧ Palette.folded a = Palette.folded b

instance (a b : UInt16) : Decidable (Alias a b) :=
  inferInstanceAs (Decidable (a = b ∨ 0x3F00 ≤ a ∧ 0x3F00 ≤ b ∧ _))

theorem alias_iff_eq {a : UInt16} (h : a < 0x3F00) (b : UInt16) : Alias a b ↔ a = b := by
  have hnot : ¬ 0x3F00 ≤ a := UInt16.not_le.2 h
  simp [Alias, hnot]

theorem alias_iff_folded {a : UInt16} (h : 0x3F00 ≤ a) (b : UInt16) :
    Alias a b ↔ 0x3F00 ≤ b ∧ Palette.folded a = Palette.folded b := by
  constructor
  · rintro (rfl | ⟨-, hb, hfolded⟩)
    · exact ⟨h, rfl⟩
    · exact ⟨hb, hfolded⟩
  · rintro ⟨hb, hfolded⟩
    exact .inr ⟨h, hb, hfolded⟩

/-! ### The byte at an address -/

def byteAt (ppu : Ppu) (addr : UInt16) : UInt8 :=
  if addr < 0x3F00 then ppu.vram.get addr else ppu.palette.get (Palette.cell addr)

theorem byteAt_of_lt (ppu : Ppu) {addr : UInt16} (h : addr < 0x3F00) :
    ppu.byteAt addr = ppu.vram.get addr := if_pos h

theorem byteAt_of_le (ppu : Ppu) {addr : UInt16} (h : 0x3F00 ≤ addr) :
    ppu.byteAt addr = ppu.palette.get (Palette.cell addr) := if_neg (UInt16.not_lt.2 h)

theorem byteAt_apply (s : Picture) (op : Op) {a : UInt16} (hlow : 0x2000 ≤ a) (hhigh : a < 0x4000) :
    (apply s op).1.byteAt a = match op.store? s.1 with
      | some (addr, b) => if Alias a addr then b else s.1.byteAt a
      | none => s.1.byteAt a := by
  obtain ⟨hvram, hpalette⟩ := memories_apply s op
  by_cases hname : a < 0x3F00
  · rw [byteAt_of_lt _ hname, byteAt_of_lt _ hname, hvram]
    cases hstore : op.store? s.1 with
    | none => rfl
    | some store =>
      obtain ⟨addr, b⟩ := store
      have haddr := lt_of_store hstore
      simp only [alias_iff_eq hname]
      by_cases heq : a = addr
      · subst heq
        rw [if_pos rfl, if_pos ⟨hlow, hname⟩, Memory.get_set_self]
      · rw [if_neg heq]
        split
        case isTrue =>
          apply Memory.get_set_of_mod_ne
          rw [← UInt16.toNat_inj] at heq
          simp only [UInt16.lt_iff_toNat_lt, UInt16.reduceToNat] at hhigh haddr
          omega
        case isFalse => rfl
  · have hup : 0x3F00 ≤ a := UInt16.not_lt.1 hname
    rw [byteAt_of_le _ hup, byteAt_of_le _ hup, hpalette]
    cases hstore : op.store? s.1 with
    | none => rfl
    | some store =>
      obtain ⟨addr, b⟩ := store
      simp only [alias_iff_folded hup]
      by_cases haddr : 0x3F00 ≤ addr
      · simp only [haddr, true_and, ite_true]
        split
        case isTrue hfolded =>
          apply Memory.get_set_of_mod_eq
          rw [Palette.toNat_cell, Palette.toNat_cell, hfolded]
        case isFalse hfolded =>
          apply Memory.get_set_of_mod_ne
          rw [← Palette.cell_eq_mod, ← Palette.cell_eq_mod, Palette.toNat_cell, Palette.toNat_cell]
          exact fun h => hfolded h.symm
      · rw [if_neg haddr, if_neg (fun h => haddr h.1)]

/-! ### The bytes stored in a history -/

/-- The bytes written through the data register, each with the address it was for. -/
def stores (s : Picture) : List Op → List (UInt16 × UInt8)
  | [] => []
  | op :: ops => (op.store? s.1).toList ++ stores (apply s op) ops

/-- The last byte written while the data register stood at an alias of an address, and zero where
there was none. -/
def lastStored (s : Picture) (ops : List Op) (a : UInt16) : UInt8 :=
  (((stores s ops).filter fun store => Alias a store.1).getLast?.map Prod.snd).getD 0

theorem stores_snoc (s : Picture) (ops : List Op) (op : Op) :
    stores s (ops ++ [op]) = stores s ops ++ (op.store? (run s ops).1).toList := by
  induction ops generalizing s with
  | nil => simp [stores, run]
  | cons first ops ih =>
    have hrun : run s (first :: ops) = run (apply s first) ops := rfl
    rw [List.cons_append, stores, ih, stores, hrun, List.append_assoc]

theorem lastStored_snoc (s : Picture) (ops : List Op) (op : Op) (a : UInt16) :
    lastStored s (ops ++ [op]) a = match op.store? (run s ops).1 with
      | some (addr, b) => if Alias a addr then b else lastStored s ops a
      | none => lastStored s ops a := by
  unfold lastStored
  rw [stores_snoc, List.filter_append]
  cases op.store? (run s ops).1 with
  | none => simp
  | some store =>
    obtain ⟨addr, b⟩ := store
    by_cases h : Alias a addr
    · simp [h]
    · simp [h]

theorem byteAt_run (board : Board) (ops : List Op) {a : UInt16} (hlow : 0x2000 ≤ a)
    (hhigh : a < 0x4000) :
    (run (powerOn, board) ops).1.byteAt a = lastStored (powerOn, board) ops a := by
  induction ops using List.reverseRecOn with
  | nil =>
    show powerOn.byteAt a = 0
    unfold byteAt
    split
    · exact Memory.get_filled 0 a
    · exact Memory.get_filled 0 _
  | append_singleton ops op ih => rw [run_snoc, byteAt_apply _ op hlow hhigh, lastStored_snoc, ih]

/-! ### Reading back -/

/-- The accesses that point the data register at an address. -/
def pointing (a : UInt16) : List Op :=
  [.readRegister 2, .writeRegister 6 (Word.hi a), .writeRegister 6 (Word.lo a)]

theorem run_pointing (s : Picture) (h : s.1.scroll.Valid) {a : UInt16} (ha : a < 0x4000) :
    run s (pointing a) = ({ s.1 with
      vblank := false
      scroll := { s.1.scroll with v := a, t := a, second := false } }, s.2) := by
  have hhigh : Word.hi a &&& 0x3F = Word.hi a := by
    have hlt : (Word.hi a).toNat < 2 ^ 6 := by
      rw [Word.toNat_hi]
      exact Nat.div_lt_of_lt_mul (UInt16.lt_iff_toNat_lt.1 ha)
    apply UInt8.toNat_inj.1
    rw [UInt8.toNat_and]
    exact Nat.and_two_pow_sub_one_of_lt_two_pow hlt
  have hscroll := Scroll.address_pair h.clearToggle rfl (Word.hi a) (Word.lo a)
  rw [hhigh, Word.ofBytes_lo_hi] at hscroll
  show (({ s.1 with
    vblank := false
    scroll := (s.1.scroll.clearToggle.writeAddress (Word.hi a)).writeAddress (Word.lo a) } : Ppu),
    s.2) = _
  rw [hscroll]
  rfl

theorem dataAddr_pointing (s : Picture) (h : s.1.scroll.Valid) {a : UInt16} (ha : a < 0x4000) :
    (run s (pointing a)).1.dataAddr = a := by
  apply UInt16.toNat_inj.1
  rw [toNat_dataAddr, run_pointing s h ha]
  exact Nat.mod_eq_of_lt (UInt16.lt_iff_toNat_lt.1 ha)

theorem readData_of_palette (ppu : Ppu) (board : Board) (h : 0x3F00 ≤ ppu.dataAddr) :
    (ppu.readData board).1 = ppu.byteAt ppu.dataAddr := by
  simp only [readData, byteAt, if_neg (UInt16.not_lt.2 h)]

theorem next_in_range (ppu : Ppu) {a : UInt16} (hlow : 0x2000 ≤ a) (hname : a < 0x3F00) :
    0x2000 ≤ a + ppu.dataStep ∧ a + ppu.dataStep < 0x4000 := by
  have hstep := ppu.toNat_dataStep
  simp only [UInt16.lt_iff_toNat_lt, UInt16.le_iff_toNat_le, UInt16.toNat_add,
    UInt16.reduceToNat] at hlow hname ⊢
  omega

/-- The second of two reads below the palette answers for the first, but for one that finds the
address moved on into the palette. -/
theorem readData_twice (ppu : Ppu) (board : Board) (hlow : 0x2000 ≤ ppu.dataAddr)
    (hname : ppu.dataAddr < 0x3F00) :
    ((ppu.readData board).2.readData board).1 =
      ppu.byteAt (if ppu.dataAddr + ppu.dataStep < 0x3F00 then ppu.dataAddr
        else ppu.dataAddr + ppu.dataStep) := by
  have hread : (ppu.readData board).2 = { ppu with
      scroll := ppu.scroll.advance ppu.dataStep
      buffer := ppu.vram.get ppu.dataAddr } := by
    simp only [readData, fetch, if_pos hname, if_neg (UInt16.not_lt.2 hlow)]
  have hnext : (ppu.readData board).2.dataAddr = ppu.dataAddr + ppu.dataStep := by
    have hstep := ppu.toNat_dataStep
    have hlt := UInt16.lt_iff_toNat_lt.1 hname
    rw [toNat_dataAddr] at hlt
    change _ < 0x3F00 at hlt
    apply UInt16.toNat_inj.1
    rw [toNat_dataAddr, readData_scroll, Scroll.toNat_advance, UInt16.toNat_add, toNat_dataAddr]
    omega
  rw [hread] at hnext ⊢
  unfold readData
  dsimp only
  rw [hnext]
  split
  case isTrue hbelow => exact (ppu.byteAt_of_lt hname).symm
  case isFalse hbelow => exact (ppu.byteAt_of_le (UInt16.not_lt.1 hbelow)).symm

/-! ### Runs -/

/-- The answers of two reads of the data register, one right after the other. -/
def answers (s : Picture) : UInt8 × UInt8 :=
  let first := s.1.readRegister s.2 7
  (first.1, (first.2.readRegister s.2 7).1)

variable (board : Board) (ops : List Op) {a : UInt16}

theorem dataAddr_of_run (ha : a < 0x4000) :
    (run (powerOn, board) (ops ++ pointing a)).1.dataAddr = a := by
  rw [run_append]
  exact dataAddr_pointing _ (scroll_run_valid board ops) ha

theorem byteAt_pointing (ha : a < 0x4000) (c : UInt16) :
    (run (powerOn, board) (ops ++ pointing a)).1.byteAt c =
      (run (powerOn, board) ops).1.byteAt c := by
  rw [run_append, run_pointing _ (scroll_run_valid board ops) ha]
  rfl

theorem first_answer (hup : 0x3F00 ≤ a) (hhigh : a < 0x4000) :
    (answers (run (powerOn, board) (ops ++ pointing a))).1 = lastStored (powerOn, board) ops a := by
  have haddr := dataAddr_of_run board ops hhigh
  have hbyte := byteAt_pointing board ops hhigh a
  have hlow : 0x2000 ≤ a := UInt16.le_trans (by decide) hup
  generalize run (powerOn, board) (ops ++ pointing a) = pointed at haddr hbyte ⊢
  show (pointed.1.readData pointed.2).1 = _
  rw [readData_of_palette _ _ (by rw [haddr]; exact hup), haddr, hbyte,
    byteAt_run board ops hlow hhigh]

theorem second_answer (hlow : 0x2000 ≤ a) (hname : a < 0x3F00) :
    let next := a + (run (powerOn, board) ops).1.dataStep
    (answers (run (powerOn, board) (ops ++ pointing a))).2 =
      lastStored (powerOn, board) ops (if next < 0x3F00 then a else next) := by
  intro next
  have hhigh : a < 0x4000 := UInt16.lt_trans hname (by decide)
  have haddr := dataAddr_of_run board ops hhigh
  have hbyte := byteAt_pointing board ops hhigh
  have hstep : (run (powerOn, board) (ops ++ pointing a)).1.dataStep =
      (run (powerOn, board) ops).1.dataStep := by
    rw [run_append, run_pointing _ (scroll_run_valid board ops) hhigh]
    rfl
  obtain ⟨hnextLow, hnextHigh⟩ := next_in_range (run (powerOn, board) ops).1 hlow hname
  generalize run (powerOn, board) (ops ++ pointing a) = pointed at haddr hbyte hstep ⊢
  show ((pointed.1.readData pointed.2).2.readData pointed.2).1 = _
  rw [readData_twice _ _ (by rw [haddr]; exact hlow) (by rw [haddr]; exact hname), haddr, hstep,
    hbyte]
  split
  case isTrue => exact byteAt_run board ops hlow hhigh
  case isFalse => exact byteAt_run board ops hnextLow hnextHigh

theorem lastStored_pointing {c : UInt16} (hlow : 0x2000 ≤ a) (hhigh : a < 0x4000)
    (hc : c < 0x4000) (b : UInt8) :
    lastStored (powerOn, board) (ops ++ pointing c ++ [.writeRegister 7 b]) a =
      if Alias a c then b else lastStored (powerOn, board) ops a := by
  have hstore : Op.store? (.writeRegister 7 b)
      (run (powerOn, board) (ops ++ pointing c)).1 = some (c, b) := by
    show some ((run (powerOn, board) (ops ++ pointing c)).1.dataAddr, b) = _
    rw [dataAddr_of_run board ops hc]
  have hbefore : lastStored (powerOn, board) (ops ++ pointing c) a =
      lastStored (powerOn, board) ops a := by
    rw [← byteAt_run board _ hlow hhigh, ← byteAt_run board _ hlow hhigh,
      byteAt_pointing board ops hc]
  rw [lastStored_snoc, hstore, hbefore]

/-- After every run from power on the data register, once pointed at an address from `$2000` on,
reads the last byte that was stored at an alias of it: in the palette at once and below it with the
second read, which answers for the next address where that lies in the palette.  A byte stored at
an address is read at its aliases and nowhere else. -/
theorem data_register_is_memory (hlow : 0x2000 ≤ a) (hhigh : a < 0x4000) :
    let start : Picture := (powerOn, board)
    let pointed := run start (ops ++ pointing a)
    let next := a + (run start ops).1.dataStep
    (0x3F00 ≤ a → (answers pointed).1 = lastStored start ops a) ∧
    (a < 0x3F00 →
      (answers pointed).2 = lastStored start ops (if next < 0x3F00 then a else next)) ∧
    (∀ (c : UInt16) (b : UInt8), c < 0x4000 →
      lastStored start (ops ++ pointing c ++ [.writeRegister 7 b]) a =
        if Alias a c then b else lastStored start ops a) := by
  intro start pointed next
  refine ⟨fun hup => first_answer board ops hup hhigh,
    fun hname => second_answer board ops hlow hname, ?_⟩
  intro c b hc
  exact lastStored_pointing board ops hlow hhigh hc b

def blankBoard : Board :=
  .nrom ⟨.replicate 0x4000 0, ⟨.replicate 0x2000 0, false⟩, .horizontal⟩

/-- A byte stored at `$3F14` is read at `$3F24`, whatever is stored right behind it. -/
theorem data_register_is_memory_folded :
    let start : Picture := (powerOn, blankBoard)
    let ops := pointing 0x3F14 ++ [.writeRegister 7 0x2A, .writeRegister 7 0x17]
    (0x2000 : UInt16) ≤ 0x3F24 ∧ (0x3F24 : UInt16) < 0x4000 ∧
      (answers (run start (ops ++ pointing 0x3F24))).1 = 0x2A ∧
      lastStored start ops 0x3F24 = 0x2A := by
  intro start ops
  have hlast : lastStored start ops 0x3F24 = 0x2A := by decide +kernel
  have hread := (data_register_is_memory blankBoard ops (a := 0x3F24) (by decide) (by decide)).1
    (by decide)
  exact ⟨by decide, by decide, hread.trans hlast, hlast⟩

/-- The byte at `$3EFF` is not what the second read answers: the address has moved on to `$3F00`.
With steps of 32 the same goes for `$3EE0`. -/
theorem second_answer_from_palette :
    let start : Picture := (powerOn, blankBoard)
    let byOne := pointing 0x3EFF ++ [.writeRegister 7 0x5A]
    let byRow := [.writeRegister 0 0x04] ++ pointing 0x3EE0 ++ [.writeRegister 7 0x5A]
    (lastStored start byOne 0x3EFF = 0x5A ∧
      (answers (run start (byOne ++ pointing 0x3EFF))).2 = 0) ∧
    (lastStored start byRow 0x3EE0 = 0x5A ∧
      (answers (run start (byRow ++ pointing 0x3EE0))).2 = 0) := by
  intro start byOne byRow
  refine ⟨⟨by decide +kernel, ?_⟩, by decide +kernel, ?_⟩
  · rw [second_answer blankBoard byOne (by decide) (by decide)]
    decide +kernel
  · rw [second_answer blankBoard byRow (by decide) (by decide)]
    decide +kernel

end Ppu

end Nes
