import Nes.Proofs.Ppu.Run

/-!
# What the picture unit's registers and memories can hold

The address in use and the gathered position stay within fifteen bits, and the fine position within
three, because each register write replaces the bits of its own fields.  A byte that is written
through the data register goes to the patterns, to the nametables or to a cell of the palette, so
that the rest of the unit's memory and the four cells that no address reaches stay as they were at
power on.  Dots are counted by the beam and nothing else.
-/

namespace Nes

/-! ### Scroll and address -/

namespace Scroll

structure Valid (s : Scroll) : Prop where
  v : s.v < 0x8000
  t : s.t < 0x8000
  fineX : s.fineX < 8

theorem or_lt {a b : UInt16} (ha : a < 0x8000) (hb : b < 0x8000) : a ||| b < 0x8000 := by
  rw [UInt16.lt_iff_toNat_lt] at ha hb ⊢
  rw [UInt16.toNat_or]
  exact Nat.or_lt_two_pow (n := 15) ha hb

theorem and_lt {a : UInt16} (ha : a < 0x8000) (mask : UInt16) : a &&& mask < 0x8000 := by
  rw [UInt16.lt_iff_toNat_lt] at ha ⊢
  rw [UInt16.toNat_and]
  exact Nat.lt_of_le_of_lt Nat.and_le_left ha

/-- A field of a byte, moved to its place in a word. -/
theorem field_lt (b : UInt8) {mask : UInt8} {scale : UInt16}
    (h : mask.toNat * scale.toNat < 0x8000) : (b &&& mask).toUInt16 * scale < 0x8000 := by
  have hfield : (b &&& mask).toNat ≤ mask.toNat := by
    rw [UInt8.toNat_and]
    exact Nat.and_le_right
  have hmoved : (b &&& mask).toNat * scale.toNat < 0x8000 :=
    Nat.lt_of_le_of_lt (Nat.mul_le_mul_right _ hfield) h
  rw [UInt16.lt_iff_toNat_lt, UInt16.toNat_mul, UInt8.toNat_toUInt16]
  exact Nat.lt_of_le_of_lt (Nat.mod_le _ _) hmoved

theorem byte_lt (b : UInt8) : b.toUInt16 < 0x8000 := by
  rw [UInt16.lt_iff_toNat_lt, UInt8.toNat_toUInt16]
  exact Nat.lt_trans b.toNat_lt (by decide)

theorem low_lt (b : UInt8) : b &&& 0x07 < 8 := by
  rw [UInt8.lt_iff_toNat_lt, UInt8.toNat_and]
  exact Nat.lt_of_le_of_lt Nat.and_le_right (by decide)

namespace Valid

variable {s : Scroll}

theorem writeControl (h : s.Valid) (b : UInt8) : (s.writeControl b).Valid :=
  ⟨h.v, or_lt (and_lt h.t _) (field_lt b (by decide)), h.fineX⟩

theorem writePosition (h : s.Valid) (b : UInt8) : (s.writePosition b).Valid := by
  unfold Scroll.writePosition
  split
  · have hfine : (b &&& 0x07).toUInt16 * 0x1000 < 0x8000 := field_lt b (by decide)
    have hcoarse : (b &&& 0xF8).toUInt16 * 4 < 0x8000 := field_lt b (by decide)
    exact ⟨h.v, or_lt (or_lt (and_lt h.t _) hfine) hcoarse, h.fineX⟩
  · exact ⟨h.v, or_lt (and_lt h.t _) (byte_lt _), low_lt b⟩

theorem writeAddress (h : s.Valid) (b : UInt8) : (s.writeAddress b).Valid := by
  unfold Scroll.writeAddress
  dsimp only
  split
  · have ht : (s.t &&& 0xFF00) ||| b.toUInt16 < 0x8000 := or_lt (and_lt h.t _) (byte_lt b)
    exact ⟨ht, ht, h.fineX⟩
  · have hhigh : (b &&& 0x3F).toUInt16 * 0x100 < 0x8000 := field_lt b (by decide)
    exact ⟨h.v, or_lt (and_lt h.t _) hhigh, h.fineX⟩

theorem advance (h : s.Valid) (step : UInt16) : (s.advance step).Valid := by
  refine ⟨?_, h.t, h.fineX⟩
  show (s.v + step) &&& 0x7FFF < 0x8000
  rw [UInt16.lt_iff_toNat_lt, UInt16.toNat_and]
  exact Nat.lt_of_le_of_lt Nat.and_le_right (by decide)

theorem restart (h : s.Valid) : s.restart.Valid := ⟨h.t, h.t, h.fineX⟩

theorem clearToggle (h : s.Valid) : s.clearToggle.Valid := ⟨h.v, h.t, h.fineX⟩

end Valid

theorem second_writePosition (s : Scroll) (b : UInt8) :
    (s.writePosition b).second = !s.second := by
  unfold writePosition
  split <;> simp_all

theorem second_writeAddress (s : Scroll) (b : UInt8) : (s.writeAddress b).second = !s.second := by
  unfold writeAddress
  dsimp only
  split <;> simp_all

end Scroll

/-! ### Cells of the palette -/

namespace Palette

/-- The cell that an address stands for: the first of each four in the upper half is the one
below it in the lower half. -/
def folded (addr : UInt16) : Nat :=
  let i := addr.toNat % 32
  if i ∈ [0x10, 0x14, 0x18, 0x1C] then i - 0x10 else i

theorem toNat_cell (addr : UInt16) : (cell addr).toNat = folded addr := by
  have hall : ∀ i < 32, (if UInt16.ofNat i &&& 0x13 == 0x10 then UInt16.ofNat i &&& 0x0F
      else UInt16.ofNat i).toNat = if i ∈ [0x10, 0x14, 0x18, 0x1C] then i - 0x10 else i := by
    decide
  have hlow : (addr &&& 0x1F).toNat = addr.toNat % 32 := by
    rw [UInt16.toNat_and]
    exact Nat.and_two_pow_sub_one_eq_mod _ 5
  have hcell := hall (addr.toNat % 32) (Nat.mod_lt _ (by decide))
  rw [← hlow, UInt16.ofNat_toNat, hlow] at hcell
  exact hcell

/-- The cells that no address stands for. -/
def spare : List UInt16 := [0x10, 0x14, 0x18, 0x1C]

theorem folded_ne_spare (addr : UInt16) {i : UInt16} (h : i ∈ spare) :
    folded addr ≠ i.toNat % 32 := by
  have hi : i.toNat ∈ [0x10, 0x14, 0x18, 0x1C] := by
    simp only [spare, List.mem_cons, List.not_mem_nil, or_false] at h
    rcases h with rfl | rfl | rfl | rfl <;> decide
  unfold folded
  dsimp only
  split
  case isTrue hfold =>
    simp only [List.mem_cons, List.not_mem_nil, or_false] at hi hfold
    omega
  case isFalse hfold =>
    intro heq
    rw [heq] at hfold
    simp only [List.mem_cons, List.not_mem_nil, or_false] at hi hfold
    omega

end Palette

namespace Ppu

theorem scroll_tick (ppu : Ppu) (board : Board) : (ppu.tick board).scroll =
    if ppu.beam.next.atPreRender && ppu.rendering then ppu.scroll.restart else ppu.scroll := by
  rw [tick_eq]

theorem scroll_readRegister (ppu : Ppu) (board : Board) (number : UInt8) :
    (ppu.readRegister board number).2.scroll =
      if number &&& 7 = 2 then ppu.scroll.clearToggle
      else if number &&& 7 = 7 then ppu.scroll.advance ppu.dataStep
      else ppu.scroll := by
  unfold readRegister
  generalize number &&& 7 = register
  split
  · rfl
  · exact ppu.readData_scroll board
  case h_3 hstatus hdata => rw [if_neg hstatus, if_neg hdata]

theorem scroll_writeRegister (ppu : Ppu) (board : Board) (number b : UInt8) :
    (ppu.writeRegister board number b).1.scroll =
      if number &&& 7 = 0 then ppu.scroll.writeControl b
      else if number &&& 7 = 5 then ppu.scroll.writePosition b
      else if number &&& 7 = 6 then ppu.scroll.writeAddress b
      else if number &&& 7 = 7 then ppu.scroll.advance ppu.dataStep
      else ppu.scroll := by
  unfold writeRegister
  generalize number &&& 7 = register
  split
  case h_5 =>
    simp only [writeData]
    repeat' split
    all_goals first | rfl | contradiction
  case h_6 hcontrol hmask hposition haddress hdata =>
    rw [if_neg hcontrol, if_neg hposition, if_neg haddress, if_neg hdata]
  all_goals rfl

theorem scroll_apply_valid (s : Picture) (op : Op) (h : s.1.scroll.Valid) :
    (apply s op).1.scroll.Valid := by
  cases op with
  | step =>
    show (s.1.tick s.2).scroll.Valid
    rw [scroll_tick]
    split
    · exact h.restart
    · exact h
  | readRegister number =>
    show (s.1.readRegister s.2 number).2.scroll.Valid
    rw [scroll_readRegister]
    repeat' split
    · exact h.clearToggle
    · exact h.advance _
    · exact h
  | writeRegister number b =>
    show (s.1.writeRegister s.2 number b).1.scroll.Valid
    rw [scroll_writeRegister]
    repeat' split
    · exact h.writeControl b
    · exact h.writePosition b
    · exact h.writeAddress b
    · exact h.advance _
    · exact h
  | takeNmi =>
    rw [apply, takeNmi_eq]
    exact h
  | takeFrameReady =>
    rw [apply, takeFrameReady_eq]
    exact h
  | onBoard change => exact h

theorem scroll_run_valid (board : Board) (ops : List Op) :
    (run (powerOn, board) ops).1.scroll.Valid := by
  induction ops using List.reverseRecOn with
  | nil =>
    show Scroll.Valid {}
    exact ⟨by decide, by decide, by decide⟩
  | append_singleton ops op ih =>
    rw [run_snoc]
    exact scroll_apply_valid _ op ih

/-! ### The toggle -/

def Op.turnsToggle : Op → Bool
  | .writeRegister number _ => number &&& 7 == 5 || number &&& 7 == 6
  | _ => false

/-- The writes of position and address since the status register was last read. -/
def turns (ops : List Op) : Nat :=
  (ops.reverse.takeWhile fun op => !op.readsStatus).countP Op.turnsToggle

theorem turns_snoc (ops : List Op) (op : Op) : turns (ops ++ [op]) =
    if op.readsStatus then 0 else turns ops + if op.turnsToggle then 1 else 0 := by
  unfold turns
  rw [List.reverse_append, List.reverse_singleton, List.singleton_append, List.takeWhile_cons]
  cases op.readsStatus with
  | true => rfl
  | false => simp [List.countP_cons]

theorem second_tick (ppu : Ppu) (board : Board) :
    (ppu.tick board).scroll.second = ppu.scroll.second := by
  rw [scroll_tick]
  split <;> rfl

theorem second_readRegister (ppu : Ppu) (board : Board) (number : UInt8) :
    (ppu.readRegister board number).2.scroll.second =
      (ppu.scroll.second && !(number &&& 7 == 2)) := by
  rw [scroll_readRegister]
  by_cases hstatus : number &&& 7 = 2
  · simp [hstatus, Scroll.clearToggle]
  · rw [if_neg hstatus, beq_eq_false_iff_ne.2 hstatus, Bool.not_false, Bool.and_true]
    split <;> rfl

theorem second_writeRegister (ppu : Ppu) (board : Board) (number b : UInt8) :
    (ppu.writeRegister board number b).1.scroll.second =
      (ppu.scroll.second ^^ (number &&& 7 == 5 || number &&& 7 == 6)) := by
  rw [scroll_writeRegister]
  by_cases hposition : number &&& 7 = 5
  · simp [hposition, Scroll.second_writePosition]
  by_cases haddress : number &&& 7 = 6
  · simp [haddress, Scroll.second_writeAddress]
  · rw [if_neg hposition, if_neg haddress, beq_eq_false_iff_ne.2 hposition,
      beq_eq_false_iff_ne.2 haddress, Bool.or_false, Bool.xor_false]
    repeat' split
    all_goals rfl

theorem second_apply (s : Picture) (op : Op) : (apply s op).1.scroll.second =
    ((s.1.scroll.second ^^ op.turnsToggle) && !op.readsStatus) := by
  cases op with
  | step => simp [apply, Ppu.step, second_tick, Op.turnsToggle, Op.readsStatus]
  | readRegister number => simp [apply, second_readRegister, Op.turnsToggle, Op.readsStatus]
  | writeRegister number b => simp [apply, second_writeRegister, Op.turnsToggle, Op.readsStatus]
  | takeNmi => simp [apply, takeNmi_eq, Op.turnsToggle, Op.readsStatus]
  | takeFrameReady => simp [apply, takeFrameReady_eq, Op.turnsToggle, Op.readsStatus]
  | onBoard change => simp [apply, Op.turnsToggle, Op.readsStatus]

theorem second_run (board : Board) (ops : List Op) :
    (run (powerOn, board) ops).1.scroll.second = true ↔ turns ops % 2 = 1 := by
  induction ops using List.reverseRecOn with
  | nil => simp [run, turns, powerOn]
  | append_singleton ops op ih =>
    rw [run_snoc, second_apply, turns_snoc]
    cases op.readsStatus with
    | true => simp
    | false =>
      cases op.turnsToggle with
      | true =>
        have hturned : (turns ops + 1) % 2 = 1 ↔ ¬ turns ops % 2 = 1 := by omega
        simp [hturned, ← ih]
      | false => simpa using ih

/-! ### Counted dots -/

theorem elapsed_run (board : Board) (ops : List Op) :
    (run (powerOn, board) ops).1.beam.elapsed = ops.countP Op.isStep := by
  induction ops using List.reverseRecOn with
  | nil =>
    show Beam.elapsed {} = 0
    decide
  | append_singleton ops op ih =>
    rw [run_snoc, List.countP_append, List.countP_singleton]
    cases hop : op.isStep with
    | true =>
      obtain rfl := Op.eq_step hop
      rw [beam_apply_step, Beam.elapsed_next, ih]
      rfl
    | false =>
      rw [beam_apply_other _ hop, ih]
      rfl

/-! ### Memories -/

/-- The byte that an operation writes through the data register, with the address it is for. -/
def Op.store? (op : Op) (ppu : Ppu) : Option (UInt16 × UInt8) :=
  match op with
  | .writeRegister number b => if number &&& 7 = 7 then some (ppu.dataAddr, b) else none
  | _ => none

theorem lt_of_store {op : Op} {ppu : Ppu} {addr : UInt16} {b : UInt8}
    (h : op.store? ppu = some (addr, b)) : addr < 0x4000 := by
  cases op with
  | writeRegister number v =>
    simp only [Op.store?, Option.ite_none_right_eq_some, Option.some.injEq, Prod.mk.injEq] at h
    obtain ⟨-, rfl, -⟩ := h
    rw [UInt16.lt_iff_toNat_lt, toNat_dataAddr]
    exact Nat.mod_lt _ (by decide)
  | _ => cases h

theorem memories_writeData (ppu : Ppu) (board : Board) (b : UInt8) :
    (ppu.writeData board b).1.vram =
      (if 0x2000 ≤ ppu.dataAddr ∧ ppu.dataAddr < 0x3F00 then ppu.vram.set ppu.dataAddr b
        else ppu.vram) ∧
    (ppu.writeData board b).1.palette =
      (if 0x3F00 ≤ ppu.dataAddr then ppu.palette.set (Palette.cell ppu.dataAddr) b
        else ppu.palette) := by
  simp only [writeData]
  split
  case isTrue hpattern =>
    have hlow : ¬ 0x2000 ≤ ppu.dataAddr := UInt16.not_le.2 hpattern
    have hpalette : ¬ 0x3F00 ≤ ppu.dataAddr :=
      UInt16.not_le.2 (UInt16.lt_trans hpattern (by decide))
    rw [if_neg (fun h => hlow h.1), if_neg hpalette]
    exact ⟨rfl, rfl⟩
  case isFalse hlow =>
    split
    case isTrue hname =>
      rw [if_pos ⟨UInt16.not_lt.1 hlow, hname⟩, if_neg (UInt16.not_le.2 hname)]
      exact ⟨rfl, rfl⟩
    case isFalse hname =>
      rw [if_neg (fun h => hname h.2), if_pos (UInt16.not_lt.1 hname)]
      exact ⟨rfl, rfl⟩

/-- Both memories change by a byte written through the data register alone, each in its part of
the address space. -/
theorem memories_apply (s : Picture) (op : Op) :
    (apply s op).1.vram = (match op.store? s.1 with
      | some (addr, b) => if 0x2000 ≤ addr ∧ addr < 0x3F00 then s.1.vram.set addr b else s.1.vram
      | none => s.1.vram) ∧
    (apply s op).1.palette = (match op.store? s.1 with
      | some (addr, b) =>
        if 0x3F00 ≤ addr then s.1.palette.set (Palette.cell addr) b else s.1.palette
      | none => s.1.palette) := by
  cases op with
  | step =>
    show (s.1.tick s.2).vram = s.1.vram ∧ (s.1.tick s.2).palette = s.1.palette
    rw [tick_eq]
    exact ⟨rfl, rfl⟩
  | readRegister number =>
    obtain ⟨_, _, hread⟩ := s.1.readRegister_eq s.2 number
    rw [apply, hread]
    exact ⟨rfl, rfl⟩
  | writeRegister number b =>
    simp only [apply, writeRegister, Op.store?]
    generalize number &&& 7 = register
    split
    case h_5 =>
      exact s.1.memories_writeData s.2 b
    case h_6 hdata =>
      rw [if_neg hdata]
      exact ⟨rfl, rfl⟩
    all_goals exact ⟨rfl, rfl⟩
  | takeNmi => simp [apply, takeNmi_eq, Op.store?]
  | takeFrameReady => simp [apply, takeFrameReady_eq, Op.store?]
  | onBoard change => exact ⟨rfl, rfl⟩

/-- The part of the address space whose bytes are kept elsewhere than in the nametable memory. -/
def Elsewhere (addr : UInt16) : Prop := addr < 0x2000 ∨ 0x3F00 ≤ addr ∧ addr < 0x4000

theorem vram_apply_elsewhere (s : Picture) (op : Op) {addr : UInt16} (h : Elsewhere addr) :
    (apply s op).1.vram.get addr = s.1.vram.get addr := by
  rw [(memories_apply s op).1]
  cases hstore : op.store? s.1 with
  | none => rfl
  | some store =>
    obtain ⟨other, b⟩ := store
    dsimp only
    split
    case isTrue hname =>
      apply Memory.get_set_of_mod_ne
      simp only [Elsewhere, UInt16.lt_iff_toNat_lt, UInt16.le_iff_toNat_le,
        UInt16.reduceToNat] at h hname
      omega
    case isFalse => rfl

theorem palette_apply_spare (s : Picture) (op : Op) {i : UInt16} (h : i ∈ Palette.spare) :
    (apply s op).1.palette.get i = s.1.palette.get i := by
  rw [(memories_apply s op).2]
  cases op.store? s.1 with
  | none => rfl
  | some store =>
    obtain ⟨addr, b⟩ := store
    dsimp only
    split
    case isTrue =>
      apply Memory.get_set_of_mod_ne
      rw [← Palette.cell_eq_mod, Palette.toNat_cell]
      exact Palette.folded_ne_spare addr h
    case isFalse => rfl

theorem memories_run (board : Board) (ops : List Op) :
    (∀ addr, Elsewhere addr → (run (powerOn, board) ops).1.vram.get addr = 0) ∧
    (∀ i ∈ Palette.spare, (run (powerOn, board) ops).1.palette.get i = 0) := by
  induction ops using List.reverseRecOn with
  | nil => exact ⟨fun addr _ => Memory.get_filled 0 addr, fun i _ => Memory.get_filled 0 i⟩
  | append_singleton ops op ih =>
    rw [run_snoc]
    constructor
    · intro addr h
      rw [vram_apply_elsewhere _ op h]
      exact ih.1 addr h
    · intro i h
      rw [palette_apply_spare _ op h]
      exact ih.2 i h

/-- In every run from power on the beam is on its lines and the scroll registers are within their
widths, the toggle tells the parity of the position and address writes since the status register
was last read, the cells that no address stands for and the memory of other parts of the address
space are still zero, and the beam's place is the number of dots. -/
theorem representation_of_run (board : Board) (ops : List Op) :
    let ppu := (run (powerOn, board) ops).1
    (ppu.beam.dot ≤ 340 ∧ ppu.beam.scanline ≤ 261) ∧
    (ppu.scroll.v < 0x8000 ∧ ppu.scroll.t < 0x8000 ∧ ppu.scroll.fineX < 8) ∧
    (ppu.scroll.second = true ↔ turns ops % 2 = 1) ∧
    (∀ i ∈ [0x10, 0x14, 0x18, 0x1C], ppu.palette.get i = 0) ∧
    (∀ addr : UInt16, addr < 0x2000 ∨ 0x3F00 ≤ addr ∧ addr < 0x4000 → ppu.vram.get addr = 0) ∧
    89342 * ppu.beam.frames + 341 * ppu.beam.scanline + ppu.beam.dot = ops.countP Op.isStep := by
  intro ppu
  obtain ⟨hline, hdot⟩ := valid_run board ops
  obtain ⟨hv, ht, hfine⟩ := scroll_run_valid board ops
  obtain ⟨hvram, hpalette⟩ := memories_run board ops
  have helapsed : (ppu.beam.frames * 262 + ppu.beam.scanline) * 341 + ppu.beam.dot =
      ops.countP Op.isStep := elapsed_run board ops
  refine ⟨⟨Nat.le_of_lt_succ hdot, Nat.le_of_lt_succ hline⟩, ⟨hv, ht, hfine⟩,
    second_run board ops, hpalette, hvram, ?_⟩
  omega

end Ppu

end Nes
