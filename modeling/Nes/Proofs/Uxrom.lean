import Nes.Board.Uxrom
import Nes.Proofs.History

/-!
# What a UxROM shows, by its write history

The whole of `$8000` to `$FFFF` is one register: the last byte written there chooses the bank that
appears at `$8000`, by its remainder over the number of whole banks.  The memory at `$6000` keeps
the last byte written to each of its cells.  Neither kind of write reaches what the other set, and
the bank at `$C000` depends on the size of the program memory alone.
-/

namespace Nes.Uxrom

/-! ### The history -/

/-- What can happen to a board. -/
inductive Op
  | cpuWrite (addr : UInt16) (v : UInt8)
  | ppuWrite (addr : UInt16) (v : UInt8)
deriving DecidableEq, Repr

def apply (b : Uxrom) : Op → Uxrom
  | .cpuWrite addr v => b.cpuWrite addr v
  | .ppuWrite addr v => b.ppuWrite addr v

def run (b : Uxrom) (ops : List Op) : Uxrom := ops.foldl apply b

theorem run_snoc (b : Uxrom) (ops : List Op) (op : Op) :
    b.run (ops ++ [op]) = (b.run ops).apply op := by
  simp only [run, List.foldl_append, List.foldl_cons, List.foldl_nil]

/-- The byte that an operation writes to the bank register. -/
def Op.chosen? : Op → Option UInt8
  | .cpuWrite addr v => if 0x8000 ≤ addr then some v else none
  | .ppuWrite _ _ => none

/-- The byte that an operation writes to the address. -/
def Op.written? (addr : UInt16) : Op → Option UInt8
  | .cpuWrite other v => if other = addr then some v else none
  | .ppuWrite _ _ => none

/-! ### One write -/

section Write

variable (b : Uxrom) {addr : UInt16} (v : UInt8)

theorem cpuWrite_register (h : 0x8000 ≤ addr) :
    b.cpuWrite addr v = { b with bank := v.toNat % b.banks } := by
  have hlow : ¬ addr < 0x6000 := UInt16.not_lt.2 (UInt16.le_trans (by decide) h)
  have hmid : ¬ addr < 0x8000 := UInt16.not_lt.2 h
  unfold cpuWrite
  rw [if_neg hlow, if_neg hmid]

theorem cpuWrite_ram (hlow : 0x6000 ≤ addr) (hhigh : addr < 0x8000) :
    b.cpuWrite addr v = { b with ram := b.ram.set addr v } := by
  unfold cpuWrite
  rw [if_neg (UInt16.not_lt.2 hlow), if_pos hhigh]

theorem cpuWrite_unmapped (h : addr < 0x6000) : b.cpuWrite addr v = b := by
  unfold cpuWrite
  rw [if_pos h]

theorem bank_cpuWrite_of_lt (h : addr < 0x8000) : (b.cpuWrite addr v).bank = b.bank := by
  by_cases hlow : addr < 0x6000
  · rw [cpuWrite_unmapped b v hlow]
  · rw [cpuWrite_ram b v (UInt16.not_lt.1 hlow) h]

theorem ram_cpuWrite_register (h : 0x8000 ≤ addr) : (b.cpuWrite addr v).ram = b.ram := by
  rw [cpuWrite_register b v h]

end Write

@[simp] theorem prg_apply (b : Uxrom) (op : Op) : (b.apply op).prg = b.prg := by
  cases op with
  | cpuWrite addr v =>
    simp only [apply, cpuWrite]
    repeat' split
    all_goals rfl
  | ppuWrite addr v => rfl

@[simp] theorem banks_apply (b : Uxrom) (op : Op) : (b.apply op).banks = b.banks := by
  simp only [banks, prg_apply]

theorem bank_apply (b : Uxrom) (op : Op) :
    (b.apply op).bank = (op.chosen?.map fun v => v.toNat % b.banks).getD b.bank := by
  cases op with
  | cpuWrite addr v =>
    simp only [apply, Op.chosen?]
    split
    case isTrue h => rw [cpuWrite_register b v h, Option.map_some, Option.getD_some]
    case isFalse h => exact bank_cpuWrite_of_lt b v (UInt16.not_le.1 h)
  | ppuWrite addr v => rfl

/-- The window at `$6000` is as large as the memory, so that every address has a cell of its own. -/
theorem ram_cell_ne {addr other : UInt16} (h : 0x6000 ≤ addr ∧ addr < 0x8000)
    (hother : 0x6000 ≤ other ∧ other < 0x8000) (hne : other ≠ addr) :
    other.toNat % 0x2000 ≠ addr.toNat % 0x2000 := by
  have hne' : other.toNat ≠ addr.toNat := fun heq => hne (UInt16.toNat_inj.1 heq)
  rw [UInt16.le_iff_toNat_le, UInt16.lt_iff_toNat_lt] at h hother
  have hlow : (0x6000 : UInt16).toNat = 0x6000 := rfl
  have hhigh : (0x8000 : UInt16).toNat = 0x8000 := rfl
  omega

theorem get_ram_apply (b : Uxrom) (op : Op) {addr : UInt16} (h : 0x6000 ≤ addr ∧ addr < 0x8000) :
    (b.apply op).ram.get addr = (op.written? addr).getD (b.ram.get addr) := by
  cases op with
  | cpuWrite other v =>
    simp only [apply, Op.written?]
    by_cases hram : 0x6000 ≤ other ∧ other < 0x8000
    · rw [cpuWrite_ram b v hram.1 hram.2]
      by_cases heq : other = addr
      · rw [if_pos heq, heq, Memory.get_set_self, Option.getD_some]
      · rw [if_neg heq, Option.getD_none]
        exact b.ram.get_set_of_mod_ne v (ram_cell_ne h hram heq)
    · have hne : other ≠ addr := fun heq => hram (heq ▸ h)
      rw [if_neg hne, Option.getD_none]
      by_cases hlow : other < 0x6000
      · rw [cpuWrite_unmapped b v hlow]
      · have hhigh : 0x8000 ≤ other :=
          UInt16.not_lt.1 fun hlt => hram ⟨UInt16.not_lt.1 hlow, hlt⟩
        rw [ram_cpuWrite_register b v hhigh]
  | ppuWrite other v => rfl

/-! ### The board follows its history -/

/-- Bank and memory are what the last writes made them. -/
structure Follows (prg : Array UInt8) (b : Uxrom) (ops : List Op) : Prop where
  prg : b.prg = prg
  bank : b.bank = (History.latest Op.chosen? 0 ops).toNat % b.banks
  ram : ∀ addr : UInt16, 0x6000 ≤ addr ∧ addr < 0x8000 →
    b.ram.get addr = History.latest (Op.written? addr) 0 ops

theorem follows_powerOn (prg chr : Array UInt8) (mirroring : Mirroring) :
    Follows prg (powerOn prg chr mirroring) [] where
  prg := rfl
  bank := (Nat.zero_mod _).symm
  ram addr _ := Memory.get_filled 0 addr

theorem Follows.apply {prg : Array UInt8} {b : Uxrom} {ops : List Op} (h : Follows prg b ops)
    (op : Op) : Follows prg (b.apply op) (ops ++ [op]) := by
  constructor
  · rw [prg_apply, h.prg]
  · rw [bank_apply, banks_apply, History.latest_snoc]
    cases op.chosen? with
    | none => exact h.bank
    | some v => rfl
  · intro addr haddr
    rw [get_ram_apply b op haddr, History.latest_snoc, h.ram addr haddr]

theorem follows_run (prg chr : Array UInt8) (mirroring : Mirroring) (ops : List Op) :
    Follows prg ((powerOn prg chr mirroring).run ops) ops := by
  induction ops using List.reverseRecOn with
  | nil => exact follows_powerOn prg chr mirroring
  | append_singleton ops op ih =>
    rw [run_snoc]
    exact ih.apply op

/-! ### What a read shows -/

section Read

variable (b : Uxrom)

theorem toNat_window (base : Nat) (o : Fin 0x4000) (h : base ≤ 0xC000) :
    (UInt16.ofNat (base + o)).toNat = base + o := by
  rw [UInt16.toNat_ofNat']
  omega

/-- Both windows are sixteen kilobytes apart, and differ in the bank that they show. -/
theorem cpuRead_window {base : Nat} (hbase : base = 0x8000 ∨ base = 0xC000) (o : Fin 0x4000) :
    b.cpuRead (UInt16.ofNat (base + o)) =
      romByte b.prg ((if base = 0x8000 then b.bank else b.banks - 1) * 0x4000 + o) := by
  have haddr := toNat_window base o (by omega)
  have hlow : ¬ UInt16.ofNat (base + o) < 0x6000 := by
    rw [UInt16.lt_iff_toNat_lt, haddr]
    exact Nat.not_lt.2 (show 0x6000 ≤ base + o by omega)
  have hmid : ¬ UInt16.ofNat (base + o) < 0x8000 := by
    rw [UInt16.lt_iff_toNat_lt, haddr]
    exact Nat.not_lt.2 (show 0x8000 ≤ base + o by omega)
  have hswitched : UInt16.ofNat (base + o) < 0xC000 ↔ base = 0x8000 := by
    rw [UInt16.lt_iff_toNat_lt, haddr]
    show base + o < 0xC000 ↔ base = 0x8000
    omega
  have hplace : (base + o) % 0x4000 = o := by omega
  unfold cpuRead bankAt
  rw [if_neg hlow, if_neg hmid, haddr, hplace]
  simp only [hswitched]

theorem cpuRead_ram {addr : UInt16} (h : 0x6000 ≤ addr ∧ addr < 0x8000) :
    b.cpuRead addr = b.ram.get addr := by
  unfold cpuRead
  rw [if_neg (UInt16.not_lt.2 h.1), if_pos h.2]

theorem ram_window (o : Fin 0x2000) :
    0x6000 ≤ UInt16.ofNat (0x6000 + o) ∧ UInt16.ofNat (0x6000 + o) < 0x8000 := by
  have haddr : (UInt16.ofNat (0x6000 + o)).toNat = 0x6000 + o := by
    rw [UInt16.toNat_ofNat']
    omega
  rw [UInt16.le_iff_toNat_le, UInt16.lt_iff_toNat_lt, haddr]
  show 0x6000 ≤ 0x6000 + o.val ∧ 0x6000 + o.val < 0x8000
  omega

end Read

/-- After any writes to a board fresh from power on, a read from `$8000` on finds the bank that the
last write there chose, one from `$C000` on the last whole bank, and one from `$6000` on the last
byte written to that address; zero where the program memory has no such byte or none was written.
A write to the register leaves the memory alone and a write elsewhere leaves the bank alone. -/
theorem reads_of_history (prg chr : Array UInt8) (mirroring : Mirroring) (ops : List Op) :
    let b := (powerOn prg chr mirroring).run ops
    let n := max 1 (prg.size / 0x4000)
    let chosen := (History.latest Op.chosen? 0 ops).toNat
    (∀ o : Fin 0x4000, b.cpuRead (UInt16.ofNat (0x8000 + o)) =
      prg.getD (chosen % n * 0x4000 + o) 0) ∧
    (∀ o : Fin 0x4000, b.cpuRead (UInt16.ofNat (0xC000 + o)) =
      prg.getD ((n - 1) * 0x4000 + o) 0) ∧
    (∀ o : Fin 0x2000, b.cpuRead (UInt16.ofNat (0x6000 + o)) =
      History.latest (Op.written? (UInt16.ofNat (0x6000 + o))) 0 ops) ∧
    (∀ (addr : UInt16) (v : UInt8), 0x8000 ≤ addr → (b.cpuWrite addr v).ram = b.ram) ∧
    (∀ (addr : UInt16) (v : UInt8), addr < 0x8000 → (b.cpuWrite addr v).bank = b.bank) := by
  have hf := follows_run prg chr mirroring ops
  have hbanks : ((powerOn prg chr mirroring).run ops).banks = max 1 (prg.size / 0x4000) := by
    unfold banks bankCount
    rw [hf.prg]
  intro b n chosen
  refine ⟨?_, ?_, ?_, ?_, ?_⟩
  · intro o
    rw [cpuRead_window b (.inl rfl) o, if_pos rfl, hf.prg, hf.bank, hbanks]
    rfl
  · intro o
    rw [cpuRead_window b (.inr rfl) o, if_neg (by decide), hf.prg, hbanks]
    rfl
  · intro o
    rw [cpuRead_ram b (ram_window o), hf.ram _ (ram_window o)]
  · intro addr v haddr
    exact ram_cpuWrite_register b v haddr
  · intro addr v haddr
    exact bank_cpuWrite_of_lt b v haddr

/-- Two banks and a byte over: the register takes 5 for the second bank, whatever is written to the
memory before or after it. -/
theorem reads_of_history_odd_size :
    let prg : Array UInt8 := .replicate 0x4000 0x11 ++ .replicate 0x4001 0x22
    let b := (powerOn prg #[] .vertical).run
      [.cpuWrite 0x6001 7, .cpuWrite 0xFFFF 5, .ppuWrite 0 9, .cpuWrite 0x6002 8]
    ((0x8000 : UInt16) ≤ 0x8000 ∧ (0x6001 : UInt16) < 0x8000) ∧
      b.cpuRead 0x8000 = 0x22 ∧ b.cpuRead 0xFFFF = 0x22 ∧ b.cpuRead 0x6001 = 7 ∧
      (b.cpuWrite 0x8000 0).ram = b.ram ∧ (b.cpuWrite 0x6001 0).bank = b.bank := by
  intro prg b
  have hn : max 1 (prg.size / 0x4000) = 2 := by simp [prg]
  have hsecond : ∀ i, 0x4000 ≤ i → i < 0x8001 → prg.getD i 0 = 0x22 := by
    intro i hlow hhigh
    have hin : i - 0x4000 < 0x4001 := by omega
    simp [prg, Array.getD_eq_getD_getElem?, Array.getElem?_append_right, hlow, hin]
  obtain ⟨hswitched, hfixed, hram, hregister, hmemory⟩ := reads_of_history prg #[] .vertical
    [.cpuWrite 0x6001 7, .cpuWrite 0xFFFF 5, .ppuWrite 0 9, .cpuWrite 0x6002 8]
  rw [hn] at hswitched hfixed
  refine ⟨⟨by decide, by decide⟩, ?_, ?_, hram 1, hregister 0x8000 0 (by decide),
    hmemory 0x6001 0 (by decide)⟩
  · exact (hswitched 0).trans (hsecond _ (by decide) (by decide))
  · exact (hfixed 0x3FFF).trans (hsecond _ (by decide) (by decide))

end Nes.Uxrom
