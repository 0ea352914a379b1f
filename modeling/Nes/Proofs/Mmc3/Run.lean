import Nes.Board.Mmc3

/-!
# Runs of an MMC3

A board is driven by three kinds of operations: writes of the processor, writes of the picture
unit and clocks.  Of these only a processor's write between `$8000` and `$9FFF` reaches the bank
registers, and there the lowest address bit tells bank select from bank data.
-/

namespace Nes.Mmc3

/-- What can happen to a board. -/
inductive Op
  | cpuWrite (addr : UInt16) (v : UInt8)
  | ppuWrite (addr : UInt16) (v : UInt8)
  | clock
deriving DecidableEq, Repr

def apply (b : Mmc3) : Op → Mmc3
  | .cpuWrite addr v => b.cpuWrite addr v
  | .ppuWrite addr v => b.ppuWrite addr v
  | .clock => b.clockScanline

def run (b : Mmc3) (ops : List Op) : Mmc3 := ops.foldl apply b

theorem run_append (b : Mmc3) (before after : List Op) :
    b.run (before ++ after) = (b.run before).run after := by
  simp only [run, List.foldl_append]

theorem run_snoc (b : Mmc3) (ops : List Op) (op : Op) :
    b.run (ops ++ [op]) = (b.run ops).apply op := by
  rw [run_append]
  rfl

/-! ### Registers and addresses -/

theorem ofAddr_bankSelect {addr : UInt16} (high : addr < 0xA000) (even : addr % 2 = 0) :
    Register.ofAddr addr = .bankSelect := by
  simp [Register.ofAddr, high, even]

theorem ofAddr_bankData {addr : UInt16} (high : addr < 0xA000) (odd : addr % 2 ≠ 0) :
    Register.ofAddr addr = .bankData := by
  simp [Register.ofAddr, high, odd]

theorem ofAddr_ne_bank {addr : UInt16} (high : ¬ addr < 0xA000) :
    Register.ofAddr addr ≠ .bankSelect ∧ Register.ofAddr addr ≠ .bankData := by
  simp only [Register.ofAddr, high, ite_false]
  repeat' split
  all_goals exact ⟨by decide, by decide⟩

theorem ofAddr_irqReload_iff (addr : UInt16) :
    Register.ofAddr addr = .irqReload ↔ 0xC000 ≤ addr ∧ addr < 0xE000 ∧ addr % 2 = 1 := by
  simp only [Register.ofAddr, beq_iff_eq, ← UInt16.not_lt]
  grind

theorem ofAddr_irqDisable_iff (addr : UInt16) :
    Register.ofAddr addr = .irqDisable ↔ 0xE000 ≤ addr ∧ addr % 2 = 0 := by
  simp only [Register.ofAddr, beq_iff_eq, ← UInt16.not_lt]
  grind

theorem ofAddr_irqEnable_iff (addr : UInt16) :
    Register.ofAddr addr = .irqEnable ↔ 0xE000 ≤ addr ∧ addr % 2 = 1 := by
  simp only [Register.ofAddr, beq_iff_eq, ← UInt16.not_lt]
  grind

/-! ### Memory sizes -/

@[simp] theorem prg_writeRegister (b : Mmc3) (r : Register) (v : UInt8) :
    (b.writeRegister r v).prg = b.prg := by
  cases r <;> rfl

@[simp] theorem chr_writeRegister (b : Mmc3) (r : Register) (v : UInt8) :
    (b.writeRegister r v).chr = b.chr := by
  cases r <;> rfl

@[simp] theorem prg_cpuWrite (b : Mmc3) (addr : UInt16) (v : UInt8) :
    (b.cpuWrite addr v).prg = b.prg := by
  unfold cpuWrite
  split
  · rfl
  · split
    · rfl
    · exact prg_writeRegister b _ v

@[simp] theorem chr_cpuWrite (b : Mmc3) (addr : UInt16) (v : UInt8) :
    (b.cpuWrite addr v).chr = b.chr := by
  unfold cpuWrite
  split
  · rfl
  · split
    · rfl
    · exact chr_writeRegister b _ v

@[simp] theorem prg_ppuWrite (b : Mmc3) (addr : UInt16) (v : UInt8) :
    (b.ppuWrite addr v).prg = b.prg := by
  unfold ppuWrite
  split <;> rfl

@[simp] theorem banks_ppuWrite (b : Mmc3) (addr : UInt16) (v : UInt8) :
    (b.ppuWrite addr v).banks = b.banks := by
  unfold ppuWrite
  split <;> rfl

theorem chr_ppuWrite (b : Mmc3) (addr : UInt16) (v : UInt8) :
    (b.ppuWrite addr v).chr =
      if addr < 0x2000 then b.chr.write (b.chrOffset addr) v else b.chr := by
  unfold ppuWrite
  split <;> rfl

@[simp] theorem prg_apply (b : Mmc3) (op : Op) : (b.apply op).prg = b.prg := by
  cases op with
  | cpuWrite addr v => exact prg_cpuWrite b addr v
  | ppuWrite addr v => exact prg_ppuWrite b addr v
  | clock => rfl

@[simp] theorem chr_size_apply (b : Mmc3) (op : Op) :
    (b.apply op).chr.bytes.size = b.chr.bytes.size := by
  cases op with
  | cpuWrite addr v => simp only [apply, chr_cpuWrite]
  | ppuWrite addr v =>
    simp only [apply, chr_ppuWrite]
    split
    · exact Chr.size_write _ _ _
    · rfl
  | clock => rfl

theorem prg_run (b : Mmc3) (ops : List Op) : (b.run ops).prg = b.prg := by
  induction ops generalizing b with
  | nil => rfl
  | cons op ops ih =>
    show ((b.apply op).run ops).prg = b.prg
    rw [ih, prg_apply]

theorem chr_size_run (b : Mmc3) (ops : List Op) :
    (b.run ops).chr.bytes.size = b.chr.bytes.size := by
  induction ops generalizing b with
  | nil => rfl
  | cons op ops ih =>
    show ((b.apply op).run ops).chr.bytes.size = b.chr.bytes.size
    rw [ih, chr_size_apply]

end Nes.Mmc3
