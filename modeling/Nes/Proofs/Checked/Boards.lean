import Nes.Board
import Nes.Proofs.Checked.Arithmetic

/-!
# Boards, checked

The boards with every index, difference and remainder checked.  A board's bank count is never
zero, an address of a window lies in it, and a counter is only counted down from above zero.  A
UxROM relies on more: it takes character memory for writable only where every address of the
patterns is inside.
-/

namespace Nes

open Checked

/-! ### Addresses -/

theorem sub_base {addr base : UInt16} (h : ¬ addr < base) : sub addr base = .ok (addr - base) :=
  sub_ok (UInt16.le_iff_toNat_le.1 (UInt16.not_lt.1 h))

theorem toNat_sub_base {addr base : UInt16} (h : ¬ addr < base) :
    (addr - base).toNat = addr.toNat - base.toNat :=
  UInt16.toNat_sub_of_le _ _ (UInt16.not_lt.1 h)

/-- In a window that begins at a multiple of its size, the distance from the base is the remainder
by the size. -/
theorem toNat_sub_window {addr base : UInt16} {size : Nat} (hlow : ¬ addr < base)
    (hhigh : addr.toNat < base.toNat + size) (hbase : size ∣ base.toNat) :
    (addr - base).toNat = addr.toNat % size := by
  have hle : base.toNat ≤ addr.toNat := UInt16.le_iff_toNat_le.1 (UInt16.not_lt.1 hlow)
  obtain ⟨k, hk⟩ := hbase
  have haddr : addr.toNat - base.toNat + size * k = addr.toNat := by omega
  rw [toNat_sub_base hlow]
  calc addr.toNat - base.toNat
      = (addr.toNat - base.toNat) % size := (Nat.mod_eq_of_lt (by omega)).symm
    _ = (addr.toNat - base.toNat + size * k) % size := (Nat.add_mul_mod_self_left _ _ _).symm
    _ = addr.toNat % size := by rw [haddr]

/-- The memory at `$6000`. -/
def PrgRam.readChecked (ram : PrgRam) (addr : UInt16) : Checked UInt8 := do
  let offset ← sub addr 0x6000
  ram.getChecked offset.toNat

def PrgRam.writeChecked (ram : PrgRam) (addr : UInt16) (v : UInt8) : Checked PrgRam := do
  let offset ← sub addr 0x6000
  ram.setChecked offset.toNat v

section PrgRam

variable {addr : UInt16} (hlow : ¬ addr < 0x6000) (hhigh : addr < 0x8000)

include hlow hhigh

theorem prgRam_cell : (addr - 0x6000).toNat = addr.toNat % 0x2000 :=
  toNat_sub_window hlow (UInt16.lt_iff_toNat_lt.1 hhigh) (by decide)

theorem PrgRam.readChecked_ok (ram : PrgRam) :
    PrgRam.readChecked ram addr = .ok (ram.get addr) := by
  unfold PrgRam.readChecked
  rw [sub_base hlow, ok_bind, Memory.getChecked_ok _ (prgRam_cell hlow hhigh)]

theorem PrgRam.writeChecked_ok (ram : PrgRam) (v : UInt8) :
    PrgRam.writeChecked ram addr v = .ok (ram.set addr v) := by
  unfold PrgRam.writeChecked
  rw [sub_base hlow, ok_bind, Memory.setChecked_ok _ _ (prgRam_cell hlow hhigh)]

end PrgRam

/-! ### NROM -/

namespace Nrom

def cpuReadChecked (b : Nrom) (addr : UInt16) : Checked UInt8 :=
  if addr < 0x8000 then .ok 0
  else do
    let offset ← sub addr 0x8000
    return romByte b.prg
      (if b.prg.size = 0x4000 then offset.toNat % 0x4000 else offset.toNat)

theorem cpuReadChecked_ok (b : Nrom) (addr : UInt16) :
    b.cpuReadChecked addr = .ok (b.cpuRead addr) := by
  unfold cpuReadChecked cpuRead
  split
  case isTrue => rfl
  case isFalse h =>
    have hlow : 0x8000 ≤ addr.toNat := UInt16.le_iff_toNat_le.1 (UInt16.not_lt.1 h)
    have hmod : (addr.toNat - 0x8000) % 0x4000 = addr.toNat % 0x4000 := by omega
    have hbase : (0x8000 : UInt16).toNat = 0x8000 := rfl
    rw [sub_base h, ok_bind, toNat_sub_base h, hbase, hmod]
    rfl

end Nrom

/-! ### UxROM -/

namespace Uxrom

def cpuReadChecked (b : Uxrom) (addr : UInt16) : Checked UInt8 :=
  if addr < 0x6000 then .ok 0
  else if addr < 0x8000 then PrgRam.readChecked b.ram addr
  else if addr < 0xC000 then do
    let offset ← sub addr 0x8000
    return romByte b.prg (b.bank * 0x4000 + offset.toNat)
  else do
    let last ← diff b.banks 1
    let offset ← sub addr 0xC000
    return romByte b.prg (last * 0x4000 + offset.toNat)

def cpuWriteChecked (b : Uxrom) (addr : UInt16) (v : UInt8) : Checked Uxrom :=
  if addr < 0x6000 then .ok b
  else if addr < 0x8000 then do
    let ram ← PrgRam.writeChecked b.ram addr v
    return { b with ram }
  else do
    let bank ← rem v.toNat b.banks
    return { b with bank }

def ppuWriteChecked (b : Uxrom) (addr : UInt16) (v : UInt8) : Checked Uxrom :=
  if b.chr.bytes.size = 0x2000 ∧ addr < 0x2000 then do
    let bytes ← store b.chr.bytes addr.toNat v
    return { b with chr := { b.chr with bytes } }
  else .ok b

/-- Character memory is writable by its size. -/
def Sound (b : Uxrom) : Prop := b.chr.writable = (b.chr.bytes.size == 0x2000)

variable (b : Uxrom) (addr : UInt16) (v : UInt8)

theorem cpuReadChecked_ok : b.cpuReadChecked addr = .ok (b.cpuRead addr) := by
  have hbanks : 1 ≤ b.banks := bankCount_pos _ _
  unfold cpuReadChecked cpuRead bankAt
  by_cases h6 : addr < 0x6000
  · rw [if_pos h6, if_pos h6]
  rw [if_neg h6, if_neg h6]
  by_cases h8 : addr < 0x8000
  · rw [if_pos h8, if_pos h8]
    exact PrgRam.readChecked_ok h6 h8 b.ram
  rw [if_neg h8, if_neg h8]
  by_cases hC : addr < 0xC000
  · have hoffset : (addr - 0x8000).toNat = addr.toNat % 0x4000 :=
      toNat_sub_window h8 (UInt16.lt_iff_toNat_lt.1 hC) (by decide)
    rw [if_pos hC, if_pos hC, sub_base h8, ok_bind, hoffset]
    rfl
  · have hoffset : (addr - 0xC000).toNat = addr.toNat % 0x4000 :=
      toNat_sub_window hC addr.toNat_lt (by decide)
    rw [if_neg hC, if_neg hC, diff_ok hbanks, ok_bind, sub_base hC, ok_bind, hoffset]
    rfl

theorem cpuWriteChecked_ok : b.cpuWriteChecked addr v = .ok (b.cpuWrite addr v) := by
  have hbanks : 0 < b.banks := bankCount_pos _ _
  unfold cpuWriteChecked cpuWrite
  by_cases h6 : addr < 0x6000
  · rw [if_pos h6, if_pos h6]
  rw [if_neg h6, if_neg h6]
  by_cases h8 : addr < 0x8000
  · rw [if_pos h8, if_pos h8, PrgRam.writeChecked_ok h6 h8]
    rfl
  · rw [if_neg h8, if_neg h8, rem_ok hbanks]
    rfl

theorem ppuWriteChecked_ok (h : b.Sound) (haddr : addr < 0x2000) :
    b.ppuWriteChecked addr v = .ok (b.ppuWrite addr v) := by
  have hlt : addr.toNat < 0x2000 := UInt16.lt_iff_toNat_lt.1 haddr
  obtain ⟨prg, ⟨bytes, writable⟩, ram, bank, mirroring⟩ := b
  simp only [Sound] at h
  subst h
  unfold ppuWriteChecked ppuWrite
  by_cases hsize : bytes.size = 0x2000
  · rw [if_pos ⟨hsize, haddr⟩, store_ok (hsize ▸ hlt)]
    simp [hsize, Chr.write]
  · rw [if_neg fun hboth => hsize hboth.1]
    simp [hsize, Chr.write]

theorem sound_powerOn (prg chr : Array UInt8) (mirroring : Mirroring) :
    (powerOn prg chr mirroring).Sound := rfl

theorem Sound.cpuWrite {b : Uxrom} (h : b.Sound) : (b.cpuWrite addr v).Sound := by
  unfold Uxrom.cpuWrite
  repeat' split
  all_goals exact h

theorem Sound.ppuWrite {b : Uxrom} (h : b.Sound) : (b.ppuWrite addr v).Sound := by
  show (b.chr.write addr.toNat v).writable = ((b.chr.write addr.toNat v).bytes.size == 0x2000)
  rw [Chr.writable_write, Chr.size_write]
  exact h

end Uxrom

/-! ### MMC3 -/

/-- Clocks that count down are checked. -/
def ScanlineCounter.clockChecked (s : ScanlineCounter) : Checked ScanlineCounter :=
  if s.reload || s.counter == 0 then .ok { s with counter := s.latch, reload := false }
  else do
    let counter ← sub s.counter 1
    return { s with
      counter
      pending := s.pending || (counter == 0 && s.enabled) }

theorem ScanlineCounter.clockChecked_ok (s : ScanlineCounter) : s.clockChecked = .ok s.clock := by
  unfold clockChecked clock
  split
  case isTrue => rfl
  case isFalse h =>
    have hcounter : s.counter ≠ 0 := by
      intro hzero
      simp [hzero] at h
    have hpos : 1 ≤ s.counter.toNat := by
      have hne : s.counter.toNat ≠ 0 := fun hzero => hcounter (UInt8.toNat_inj.1 hzero)
      omega
    have hone : (s.counter - 1 == 0) = (s.counter == 1) := by
      rw [Bool.eq_iff_iff, beq_iff_eq, beq_iff_eq, UInt8.sub_eq_iff_eq_add, UInt8.zero_add]
    rw [sub_ok hpos, ok_bind, hone]
    rfl

namespace Mmc3

def cpuReadChecked (b : Mmc3) (addr : UInt16) : Checked UInt8 :=
  if addr < 0x6000 then .ok 0
  else if addr < 0x8000 then PrgRam.readChecked b.ram addr
  else do
    let offset ← sub addr 0x8000
    let bank ← entry b.banks.windows.prg (offset.toNat / 0x2000)
    return romByte b.prg (bank * 0x2000 + addr.toNat % 0x2000)

/-- The number of the bank that a register chooses out of `count`. -/
def Banks.chosenChecked (banks : Banks) (k : Nat) (bits : UInt8 → UInt8) (count : Nat) :
    Checked Nat := do
  let value ← entry banks.registers k
  rem (bits value).toNat count

def layoutChecked (b : Mmc3) (banks : Banks) : Checked Windows := do
  let r6 ← banks.chosenChecked 6 id b.prgBanks
  let r7 ← banks.chosenChecked 7 id b.prgBanks
  let last ← diff b.prgBanks 1
  let even0 ← banks.chosenChecked 0 (· &&& 0xFE) b.chrBanks
  let odd0 ← banks.chosenChecked 0 (· ||| 0x01) b.chrBanks
  let even1 ← banks.chosenChecked 1 (· &&& 0xFE) b.chrBanks
  let odd1 ← banks.chosenChecked 1 (· ||| 0x01) b.chrBanks
  let r2 ← banks.chosenChecked 2 id b.chrBanks
  let r3 ← banks.chosenChecked 3 id b.chrBanks
  let r4 ← banks.chosenChecked 4 id b.chrBanks
  let r5 ← banks.chosenChecked 5 id b.chrBanks
  let pairs : Vector Nat 4 := #v[even0, odd0, even1, odd1]
  let singles : Vector Nat 4 := #v[r2, r3, r4, r5]
  return {
    prg :=
      if banks.select.prgSwapped then #v[b.prgBanks - 2, r7, r6, last]
      else #v[r6, r7, b.prgBanks - 2, last]
    chr := if banks.select.chrSwapped then singles ++ pairs else pairs ++ singles }

def writeBankChecked (b : Mmc3) (v : UInt8) : Checked Mmc3 := do
  let registers ← setEntry b.banks.registers b.banks.select.index v
  let banks := { b.banks with registers }
  let windows ← b.layoutChecked banks
  return { b with banks := { banks with windows } }

def cpuWriteChecked (b : Mmc3) (addr : UInt16) (v : UInt8) : Checked Mmc3 :=
  if addr < 0x6000 then .ok b
  else if addr < 0x8000 then do
    let ram ← PrgRam.writeChecked b.ram addr v
    return { b with ram }
  else if Register.ofAddr addr = .bankData then b.writeBankChecked v
  else .ok (b.writeRegister (.ofAddr addr) v)

def chrOffsetChecked (b : Mmc3) (addr : UInt16) : Checked Nat := do
  let bank ← entry b.banks.windows.chr (addr.toNat / 0x400 % 8)
  return bank * 0x400 + addr.toNat % 0x400

def ppuReadChecked (b : Mmc3) (addr : UInt16) : Checked UInt8 :=
  if addr < 0x2000 then do
    let offset ← b.chrOffsetChecked addr
    return b.chr.read offset
  else .ok 0

def ppuWriteChecked (b : Mmc3) (addr : UInt16) (v : UInt8) : Checked Mmc3 :=
  if b.chr.writable ∧ addr < 0x2000 then do
    let offset ← b.chrOffsetChecked addr
    return { b with chr := b.chr.write offset v }
  else .ok b

def clockChecked (b : Mmc3) : Checked Mmc3 := do
  let irq ← b.irq.clockChecked
  return { b with irq }

variable (b : Mmc3) (addr : UInt16) (v : UInt8)

theorem cpuReadChecked_ok : b.cpuReadChecked addr = .ok (b.cpuRead addr) := by
  unfold cpuReadChecked cpuRead
  by_cases h6 : addr < 0x6000
  · rw [if_pos h6, if_pos h6]
  rw [if_neg h6, if_neg h6]
  by_cases h8 : addr < 0x8000
  · rw [if_pos h8, if_pos h8]
    exact PrgRam.readChecked_ok h6 h8 b.ram
  have hlow : 0x8000 ≤ addr.toNat := UInt16.le_iff_toNat_le.1 (UInt16.not_lt.1 h8)
  have hlt := addr.toNat_lt
  have hwindow : (addr - 0x8000).toNat / 0x2000 = addr.toNat / 0x2000 % 4 := by
    rw [toNat_sub_base h8]
    show (addr.toNat - 0x8000) / 0x2000 = addr.toNat / 0x2000 % 4
    omega
  rw [if_neg h8, if_neg h8, sub_base h8, ok_bind, hwindow,
    entry_ok _ (Nat.mod_lt _ (by decide))]
  rfl

theorem Banks.chosenChecked_ok (banks : Banks) {k : Nat} (hk : k < 8) (bits : UInt8 → UInt8)
    {count : Nat} (hcount : 0 < count) : banks.chosenChecked k bits count =
      .ok ((bits (banks.registers.get ⟨k, hk⟩)).toNat % count) := by
  unfold Banks.chosenChecked
  rw [entry_ok banks.registers hk, ok_bind]
  exact rem_ok hcount

theorem layoutChecked_ok (banks : Banks) :
    b.layoutChecked banks = .ok (banks.layout b.prgBanks b.chrBanks) := by
  have hprg : 0 < b.prgBanks := bankCount_pos _ _
  have hchr : 0 < b.chrBanks := bankCount_pos _ _
  have hprgBank {k : Nat} (hk : k < 8) := banks.chosenChecked_ok hk id hprg
  have hchrBank {k : Nat} (hk : k < 8) (bits : UInt8 → UInt8) :=
    banks.chosenChecked_ok hk bits hchr
  unfold layoutChecked
  rw [hprgBank (by decide), ok_bind, hprgBank (by decide), ok_bind, diff_ok hprg, ok_bind]
  iterate 8 rw [hchrBank (by decide), ok_bind]
  rfl

theorem writeBankChecked_ok : b.writeBankChecked v = .ok (b.writeRegister .bankData v) := by
  unfold writeBankChecked
  simp only [setEntry_ok _ b.banks.select.index.isLt, layoutChecked_ok, ok_bind]
  rfl

theorem cpuWriteChecked_ok : b.cpuWriteChecked addr v = .ok (b.cpuWrite addr v) := by
  unfold cpuWriteChecked cpuWrite
  by_cases h6 : addr < 0x6000
  · rw [if_pos h6, if_pos h6]
  rw [if_neg h6, if_neg h6]
  by_cases h8 : addr < 0x8000
  · rw [if_pos h8, if_pos h8, PrgRam.writeChecked_ok h6 h8]
    rfl
  rw [if_neg h8, if_neg h8]
  by_cases hdata : Register.ofAddr addr = .bankData
  · rw [if_pos hdata, hdata, writeBankChecked_ok]
  · rw [if_neg hdata]

theorem chrOffsetChecked_ok : b.chrOffsetChecked addr = .ok (b.chrOffset addr) := by
  unfold chrOffsetChecked
  rw [entry_ok _ (Nat.mod_lt _ (by decide))]
  rfl

theorem ppuReadChecked_ok : b.ppuReadChecked addr = .ok (b.ppuRead addr) := by
  unfold ppuReadChecked ppuRead
  split
  · rw [chrOffsetChecked_ok]
    rfl
  · rfl

theorem ppuWriteChecked_ok : b.ppuWriteChecked addr v = .ok (b.ppuWrite addr v) := by
  unfold ppuWriteChecked ppuWrite
  by_cases hlow : addr < 0x2000
  · by_cases hw : b.chr.writable = true
    · rw [if_pos ⟨hw, hlow⟩, if_pos hlow, chrOffsetChecked_ok]
      rfl
    · have hkeep := b.chr.write_of_not_writable (b.chrOffset addr) v (by simpa using hw)
      rw [if_neg fun hboth => hw hboth.1, if_pos hlow]
      dsimp only
      rw [hkeep]
  · rw [if_neg fun hboth => hlow hboth.2, if_neg hlow]

theorem clockChecked_ok : b.clockChecked = .ok b.clockScanline := by
  unfold clockChecked
  rw [ScanlineCounter.clockChecked_ok]
  rfl

end Mmc3

/-! ### Any board -/

namespace Board

def cpuReadChecked (b : Board) (addr : UInt16) : Checked UInt8 :=
  if addr < 0x6000 then .ok 0
  else
    match b with
    | nrom b => b.cpuReadChecked addr
    | uxrom b => b.cpuReadChecked addr
    | mmc3 b => b.cpuReadChecked addr

def cpuWriteChecked (b : Board) (addr : UInt16) (v : UInt8) : Checked Board :=
  if addr < 0x6000 then .ok b
  else
    match b with
    | nrom b => .ok (nrom b)
    | uxrom b => uxrom <$> b.cpuWriteChecked addr v
    | mmc3 b => mmc3 <$> b.cpuWriteChecked addr v

def ppuReadChecked (b : Board) (addr : UInt16) : Checked UInt8 :=
  if addr < 0x2000 then
    match b with
    | nrom b => .ok (b.ppuRead addr)
    | uxrom b => .ok (b.ppuRead addr)
    | mmc3 b => b.ppuReadChecked addr
  else .ok 0

def ppuWriteChecked (b : Board) (addr : UInt16) (v : UInt8) : Checked Board :=
  if addr < 0x2000 then
    match b with
    | nrom b => .ok (nrom (b.ppuWrite addr v))
    | uxrom b => uxrom <$> b.ppuWriteChecked addr v
    | mmc3 b => mmc3 <$> b.ppuWriteChecked addr v
  else .ok b

def clockChecked : Board → Checked Board
  | mmc3 b => mmc3 <$> b.clockChecked
  | b => .ok b

def Sound : Board → Prop
  | uxrom b => b.Sound
  | _ => True

variable (b : Board) (addr : UInt16) (v : UInt8)

theorem cpuReadChecked_ok : b.cpuReadChecked addr = .ok (b.cpuRead addr) := by
  unfold cpuReadChecked cpuRead
  split
  · rfl
  · cases b with
    | nrom b => exact b.cpuReadChecked_ok addr
    | uxrom b => exact b.cpuReadChecked_ok addr
    | mmc3 b => exact b.cpuReadChecked_ok addr

theorem cpuWriteChecked_ok : b.cpuWriteChecked addr v = .ok (b.cpuWrite addr v) := by
  unfold cpuWriteChecked cpuWrite
  split
  · rfl
  · cases b with
    | nrom b => rfl
    | uxrom b => exact congrArg (uxrom <$> ·) (b.cpuWriteChecked_ok addr v)
    | mmc3 b => exact congrArg (mmc3 <$> ·) (b.cpuWriteChecked_ok addr v)

theorem ppuReadChecked_ok : b.ppuReadChecked addr = .ok (b.ppuRead addr) := by
  unfold ppuReadChecked ppuRead
  split
  · cases b with
    | mmc3 b => exact b.ppuReadChecked_ok addr
    | _ => rfl
  · rfl

theorem ppuWriteChecked_ok (h : b.Sound) :
    b.ppuWriteChecked addr v = .ok (b.ppuWrite addr v) := by
  unfold ppuWriteChecked ppuWrite
  split
  case isTrue hlow =>
    cases b with
    | nrom b => rfl
    | uxrom b => exact congrArg (uxrom <$> ·) (b.ppuWriteChecked_ok addr v h hlow)
    | mmc3 b => exact congrArg (mmc3 <$> ·) (b.ppuWriteChecked_ok addr v)
  case isFalse => rfl

theorem clockChecked_ok : b.clockChecked = .ok b.clockScanline := by
  cases b with
  | mmc3 b => exact congrArg (mmc3 <$> ·) b.clockChecked_ok
  | _ => rfl

/-! ### What the accesses keep -/

variable {b : Board}

theorem Sound.cpuWrite (h : b.Sound) : (b.cpuWrite addr v).Sound := by
  unfold Board.cpuWrite
  split
  · exact h
  · cases b with
    | uxrom b => exact Uxrom.Sound.cpuWrite addr v h
    | _ => trivial

theorem Sound.ppuWrite (h : b.Sound) : (b.ppuWrite addr v).Sound := by
  unfold Board.ppuWrite
  split
  · cases b with
    | uxrom b => exact Uxrom.Sound.ppuWrite addr v h
    | _ => trivial
  · exact h

theorem Sound.clockScanline (h : b.Sound) : b.clockScanline.Sound := by
  cases b with
  | uxrom b => exact h
  | _ => trivial

theorem Sound.loadTrainer (h : b.Sound) (trainer : Array UInt8) :
    (b.loadTrainer trainer).2.Sound := by
  unfold Board.loadTrainer
  split
  · cases b with
    | uxrom b => exact h
    | _ => trivial
  · exact h

end Board

end Nes
