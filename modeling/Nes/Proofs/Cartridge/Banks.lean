import Mathlib.Tactic.IntervalCases
import Nes.Proofs.Cartridge.Parts

/-!
# Banked reads stay inside the memories

The bank numbers that a board keeps are remainders by its number of banks, and its fixed banks are
the last ones.  No operation changes that, so a read finds a byte of its memory wherever the banks
stand, and the bytes that follow `$E000` are the same ones throughout.
-/

namespace Nes

/-! ### Windows of an MMC3 -/

namespace Mmc3

theorem prgWindows_lt (swapped : Bool) {n : Nat} (hn : 0 < n) (r : Vector UInt8 8) (k : Nat)
    (hk : k < 4) : (prgWindows swapped n r)[k] < n := by
  have h6 := Nat.mod_lt r[6].toNat hn
  have h7 := Nat.mod_lt r[7].toNat hn
  cases swapped <;> interval_cases k <;> simp [prgWindows] <;> omega

theorem prgWindows_last (swapped : Bool) (n : Nat) (r : Vector UInt8 8) :
    (prgWindows swapped n r)[3] = n - 1 := by
  cases swapped <;> rfl

theorem chrWindows_lt (swapped : Bool) {n : Nat} (hn : 0 < n) (r : Vector UInt8 8) (k : Nat)
    (hk : k < 8) : (chrWindows swapped n r)[k] < n := by
  cases swapped <;> interval_cases k <;> exact Nat.mod_lt _ hn

/-- The windows show banks that there are, the last one the last bank. -/
structure InRange (b : Mmc3) : Prop where
  prg : ∀ (k : Nat) (hk : k < 4), b.banks.windows.prg[k] < b.prgBanks
  chr : ∀ (k : Nat) (hk : k < 8), b.banks.windows.chr[k] < b.chrBanks
  last : b.banks.windows.prg[3] = b.prgBanks - 1

theorem inRange_powerOn (prg : Array UInt8) (chr : Chr) (mirroring : Mirroring) :
    (powerOn prg chr mirroring).InRange where
  prg k hk := by
    have hn := bankCount_pos prg.size 0x2000
    have hone := Nat.mod_lt 1 hn
    interval_cases k <;> simp [powerOn, Windows.powerOn, prgBanks] <;> omega
  chr k hk := by
    have hn := bankCount_pos chr.bytes.size 0x400
    interval_cases k <;> exact hn
  last := rfl

variable {b : Mmc3}

theorem InRange.congr {b' : Mmc3} (h : b.InRange) (hbanks : b'.banks.windows = b.banks.windows)
    (hprg : b'.prgBanks = b.prgBanks) (hchr : b'.chrBanks = b.chrBanks) : b'.InRange := by
  obtain ⟨hlow, hhigh, hlast⟩ := h
  rw [← hbanks, ← hprg] at hlow hlast
  rw [← hbanks, ← hchr] at hhigh
  exact ⟨hlow, hhigh, hlast⟩

theorem InRange.cpuWrite (h : b.InRange) (addr : UInt16) (v : UInt8) :
    (b.cpuWrite addr v).InRange := by
  unfold Mmc3.cpuWrite
  repeat' split
  · exact h
  · exact h.congr rfl rfl rfl
  · cases Register.ofAddr addr with
    | bankData =>
      exact ⟨prgWindows_lt _ (bankCount_pos _ _) _, chrWindows_lt _ (bankCount_pos _ _) _,
        prgWindows_last _ _ _⟩
    | _ => exact h.congr rfl rfl rfl

theorem InRange.ppuWrite (h : b.InRange) (addr : UInt16) (v : UInt8) :
    (b.ppuWrite addr v).InRange := by
  have hsize : (b.ppuWrite addr v).chr.bytes.size = b.chr.bytes.size :=
    b.chr_size_apply (.ppuWrite addr v)
  refine h.congr (by rw [banks_ppuWrite]) ?_ ?_
  · unfold prgBanks
    rw [prg_ppuWrite]
  · unfold chrBanks
    rw [hsize]

end Mmc3

/-! ### Any board -/

namespace Board

/-- How far apart the addresses are at which a bank repeats, by the board's number. -/
def prgWindow (id : UInt8) : Nat := if id = 4 then 0x2000 else 0x4000

def chrWindow (id : UInt8) : Nat := if id = 4 then 0x400 else 0x2000

/-- Where in program memory a read from `$8000` on looks. -/
def prgOffset (b : Board) (addr : UInt16) : Nat :=
  match b with
  | nrom b => b.offset addr
  | uxrom b => b.bankAt addr * 0x4000 + addr.toNat % 0x4000
  | mmc3 b => b.prgOffset addr

def InRange : Board → Prop
  | nrom _ => True
  | uxrom b => b.bank < b.banks
  | mmc3 b => b.InRange

theorem cpuRead_eq (b : Board) {addr : UInt16} (h : 0x8000 ≤ addr) :
    b.cpuRead addr = romByte b.prgRom (b.prgOffset addr) := by
  have h8 : ¬ addr < 0x8000 := UInt16.not_lt.2 h
  have h6 : ¬ addr < 0x6000 := UInt16.not_lt.2 (UInt16.le_trans (by decide) h)
  cases b <;> simp [cpuRead, prgRom, prgOffset, Nrom.cpuRead, Uxrom.cpuRead, Mmc3.cpuRead, h6, h8]

theorem ppuRead_eq (b : Board) {addr : UInt16} (h : addr < 0x2000) :
    b.ppuRead addr = romByte b.chr.bytes (b.chrOffset addr) := by
  cases b <;>
    simp [ppuRead, chr, chrOffset, Nrom.ppuRead, Uxrom.ppuRead, Mmc3.ppuRead, Chr.read, h]

/-! ### Operations -/

variable {b : Board}

theorem InRange.cpuWrite (h : b.InRange) (addr : UInt16) (v : UInt8) :
    (b.cpuWrite addr v).InRange := by
  unfold Board.cpuWrite
  split
  · exact h
  cases b with
  | nrom b => trivial
  | uxrom b =>
    dsimp only
    unfold Uxrom.cpuWrite
    repeat' split
    · exact h
    · exact h
    · exact Nat.mod_lt _ (bankCount_pos _ _)
  | mmc3 b => exact Mmc3.InRange.cpuWrite h addr v

theorem InRange.ppuWrite (h : b.InRange) (addr : UInt16) (v : UInt8) :
    (b.ppuWrite addr v).InRange := by
  unfold Board.ppuWrite
  split
  · cases b with
    | nrom b => trivial
    | uxrom b => exact h
    | mmc3 b => exact Mmc3.InRange.ppuWrite h addr v
  · exact h

theorem InRange.onPrgRam (h : b.InRange) (f : PrgRam → PrgRam) : (b.onPrgRam f).InRange := by
  cases b with
  | nrom b => trivial
  | uxrom b => exact h
  | mmc3 b => exact Mmc3.InRange.congr h rfl rfl rfl

theorem InRange.loadTrainer (h : b.InRange) (trainer : Array UInt8) :
    (b.loadTrainer trainer).2.InRange := by
  unfold Board.loadTrainer
  split
  · exact h.onPrgRam (·.overlay 0x1000 trainer.toList)
  · exact h

theorem InRange.clockScanline (h : b.InRange) : b.clockScanline.InRange := by
  cases b with
  | nrom b => trivial
  | uxrom b => exact h
  | mmc3 b => exact Mmc3.InRange.congr h rfl rfl rfl

/-! ### Offsets -/

section Offsets

variable {addr : UInt16}

theorem prgOffset_mod (h : 0x8000 ≤ addr) :
    b.prgOffset addr % prgWindow b.id = addr.toNat % prgWindow b.id := by
  have hlow : 0x8000 ≤ addr.toNat := UInt16.le_iff_toNat_le.1 h
  cases b with
  | nrom b =>
    simp only [prgOffset, Nrom.offset, prgWindow, id]
    split
    · exact Nat.mod_mod _ _
    · simp
      omega
  | uxrom b =>
    simp [prgOffset, prgWindow, id]
  | mmc3 b =>
    simp [prgOffset, prgWindow, id, Mmc3.prgOffset]

theorem chrOffset_mod : b.chrOffset addr % chrWindow b.id = addr.toNat % chrWindow b.id := by
  cases b with
  | nrom b => rfl
  | uxrom b => rfl
  | mmc3 b => simp [chrOffset, chrWindow, id, Mmc3.chrOffset]

variable {p q : Nat}

theorem prgOffset_lt (h : b.InRange) (hsize : b.prgRom.size = 0x4000 * p) (hp : p ≠ 0)
    (haddr : 0x8000 ≤ addr) : b.prgOffset addr < 0x4000 * p := by
  have hlow : 0x8000 ≤ addr.toNat := UInt16.le_iff_toNat_le.1 haddr
  have hhigh := addr.toNat_lt
  cases b with
  | nrom b =>
    have hone : b.prg.size = 0x4000 * p := hsize
    simp only [prgOffset, Nrom.offset]
    split
    · omega
    · omega
  | uxrom b =>
    have hbanks : b.banks = p := by
      have hprg : b.prg.size = 0x4000 * p := hsize
      simp only [Uxrom.banks, bankCount, hprg]
      omega
    have hbank : b.bank < b.banks := h
    have hat : b.bankAt addr < p := by
      unfold Uxrom.bankAt
      split <;> omega
    simp only [prgOffset]
    omega
  | mmc3 b =>
    have hbanks : b.prgBanks = 2 * p := by
      have hprg : b.prg.size = 0x4000 * p := hsize
      simp only [Mmc3.prgBanks, bankCount, hprg]
      omega
    have hwindow := Mmc3.InRange.prg h (addr.toNat / 0x2000 % 4) (Nat.mod_lt _ (by decide))
    rw [hbanks] at hwindow
    simp only [prgOffset, Mmc3.prgOffset]
    omega

theorem chrOffset_lt (h : b.InRange) (hsize : b.chr.bytes.size = 0x2000 * q) (hq : q ≠ 0)
    (haddr : addr < 0x2000) : b.chrOffset addr < 0x2000 * q := by
  have hhigh : addr.toNat < 0x2000 := UInt16.lt_iff_toNat_lt.1 haddr
  cases b with
  | nrom b =>
    simp only [chrOffset]
    omega
  | uxrom b =>
    simp only [chrOffset]
    omega
  | mmc3 b =>
    have hbanks : b.chrBanks = 8 * q := by
      have hchr : b.chr.bytes.size = 0x2000 * q := hsize
      simp only [Mmc3.chrBanks, bankCount, hchr]
      omega
    have hwindow := Mmc3.InRange.chr h (addr.toNat / 0x400 % 8) (Nat.mod_lt _ (by decide))
    rw [hbanks] at hwindow
    simp only [chrOffset, Mmc3.chrOffset]
    omega

/-- The bank that a UxROM shows from `$C000` on and an MMC3 from `$E000` on is the last one. -/
theorem prgOffset_fixed (h : b.InRange) (hsize : b.prgRom.size = 0x4000 * p) (addr : UInt16) :
    (b.id = 2 → 0xC000 ≤ addr → b.prgOffset addr = 0x4000 * p - 0x4000 + addr.toNat % 0x4000) ∧
    (b.id = 4 → 0xE000 ≤ addr → b.prgOffset addr = 0x4000 * p - 0x2000 + addr.toNat % 0x2000) := by
  cases b with
  | nrom b => simp [id]
  | uxrom b =>
    refine ⟨?_, by simp [id]⟩
    intro _ haddr
    have hprg : b.prg.size = 0x4000 * p := hsize
    have hnot : ¬ addr < 0xC000 := UInt16.not_lt.2 haddr
    simp only [prgOffset, Uxrom.bankAt, Uxrom.banks, bankCount, hprg, if_neg hnot]
    omega
  | mmc3 b =>
    refine ⟨by simp [id], ?_⟩
    intro _ haddr
    have hprg : b.prg.size = 0x4000 * p := hsize
    have hlow : 0xE000 ≤ addr.toNat := UInt16.le_iff_toNat_le.1 haddr
    have hhigh := addr.toNat_lt
    have hwindow : addr.toNat / 0x2000 % 4 = 3 := by omega
    have hlast : b.banks.windows.prg[3] = b.prgBanks - 1 := Mmc3.InRange.last h
    simp only [prgOffset, Mmc3.prgOffset, hwindow, hlast, Mmc3.prgBanks, bankCount, hprg]
    omega

end Offsets

/-- From `$E000` on a board shows the same bytes wherever its banks stand. -/
theorem cpuRead_fixed {other : Board} (h : b.InRange) (hother : other.InRange)
    (hid : other.id = b.id) (hprg : other.prgRom = b.prgRom) {p : Nat}
    (hsize : b.prgRom.size = 0x4000 * p) {addr : UInt16} (haddr : 0xE000 ≤ addr) :
    other.cpuRead addr = b.cpuRead addr := by
  have hlow : 0x8000 ≤ addr := UInt16.le_trans (by decide) haddr
  have hmid : 0xC000 ≤ addr := UInt16.le_trans (by decide) haddr
  obtain ⟨htwo, hfour⟩ := prgOffset_fixed h hsize addr
  obtain ⟨htwo', hfour'⟩ := prgOffset_fixed hother (hprg ▸ hsize) addr
  have hoffset : other.prgOffset addr = b.prgOffset addr := by
    cases b with
    | nrom b =>
      cases other with
      | nrom other =>
        have hsame : other.prg = b.prg := hprg
        simp only [prgOffset, Nrom.offset, hsame]
      | _ => simp [id] at hid
    | uxrom b => rw [htwo rfl hmid, htwo' hid hmid]
    | mmc3 b => rw [hfour rfl haddr, hfour' hid haddr]
  rw [cpuRead_eq _ hlow, cpuRead_eq _ hlow, hprg, hoffset]

end Board

namespace Cartridge

/-! ### Every run -/

theorem inRange_of_boardOf? {image : Image} {board : Board} (h : boardOf? image = some board) :
    board.InRange := by
  rcases boardOf?_cases h with ⟨-, rfl⟩ | ⟨-, rfl⟩ | ⟨-, rfl⟩
  · trivial
  · exact bankCount_pos _ _
  · exact Mmc3.inRange_powerOn _ _ _

theorem inRange_apply {c : Cartridge} (h : c.board.InRange) (op : Op) :
    (c.apply op).board.InRange := by
  cases op with
  | cpuWrite addr v => exact h.cpuWrite addr v
  | ppuWrite addr v => exact h.ppuWrite addr v
  | loadTrainer bytes => exact h.loadTrainer bytes
  | loadPrgRam bytes => exact h.onPrgRam (·.overlay 0 bytes.toList)
  | clock => exact h.clockScanline

theorem inRange_run {c : Cartridge} (h : c.board.InRange) (ops : List Op) :
    (c.run ops).board.InRange := by
  induction ops generalizing c with
  | nil => exact h
  | cons op ops ih => exact ih (inRange_apply h op)

/-- What the banks of a loaded cartridge divide up. -/
theorem loaded_sizes {data : Array UInt8} {c : Cartridge} (h : ofBytes data = .ok c) :
    c.board.InRange ∧ c.board.id = c.header.mapper ∧
    c.board.prgRom = (Image.slices data).prg ∧
    (Image.slices data).prg.size = 0x4000 * c.header.prgUnits.toNat ∧
    ∃ q, q ≠ 0 ∧ c.board.chr.bytes.size = 0x2000 * q := by
  obtain ⟨hfits, -, board, hboard, rfl⟩ := accepted_of_ok h
  have hwell := Image.wellFormed_slices hfits
  have hholds := holds_finish hwell hboard
  refine ⟨?_, hholds.id, hholds.prg, hwell.prg, ?_⟩
  · show (finish (Image.slices data) board).InRange
    unfold finish
    split
    · exact (inRange_of_boardOf? hboard).loadTrainer _
    · exact inRange_of_boardOf? hboard
  · have hchr : (assemble (Image.slices data) board).board.chr.bytes = _ := hholds.chr
    rw [hchr]
    split
    case isTrue => exact ⟨1, by decide, Array.size_replicate⟩
    case isFalse hunits =>
      exact ⟨_, fun hzero => hunits (UInt8.toNat_inj.1 hzero), hwell.chr⟩

/-- Whatever is done to a cartridge with program memory, every read of its memories finds a byte
that is there, at the place within the window that the address tells; the last bank is always
where the vectors are. -/
theorem banked_reads_in_range {data : Array UInt8} {c : Cartridge} (h : ofBytes data = .ok c)
    (hunits : c.header.prgUnits ≠ 0) (ops : List Op) :
    let prg := (Image.slices data).prg
    let board := (c.run ops).board
    (∀ addr : UInt16, 0x8000 ≤ addr → ∃ hin : board.prgOffset addr < prg.size,
      board.prgOffset addr % Board.prgWindow c.header.mapper =
        addr.toNat % Board.prgWindow c.header.mapper ∧
      board.cpuRead addr = prg[board.prgOffset addr]) ∧
    (∀ addr : UInt16, addr < 0x2000 → ∃ hin : board.chrOffset addr < board.chr.bytes.size,
      board.chrOffset addr % Board.chrWindow c.header.mapper =
        addr.toNat % Board.chrWindow c.header.mapper ∧
      board.ppuRead addr = board.chr.bytes[board.chrOffset addr]) ∧
    (c.header.mapper = 2 → ∀ addr : UInt16, 0xC000 ≤ addr →
      board.prgOffset addr = prg.size - 0x4000 + addr.toNat % 0x4000) ∧
    (c.header.mapper = 4 → ∀ addr : UInt16, 0xE000 ≤ addr →
      board.prgOffset addr = prg.size - 0x2000 + addr.toNat % 0x2000) ∧
    ∀ addr : UInt16, 0xE000 ≤ addr → board.cpuRead addr = c.board.cpuRead addr := by
  obtain ⟨hrange, hid, hprg, hsize, q, hq, hchrSize⟩ := loaded_sizes h
  have hp : c.header.prgUnits.toNat ≠ 0 := fun hzero => hunits (UInt8.toNat_inj.1 hzero)
  have hrunRange := inRange_run hrange ops
  have hrunId : (c.run ops).board.id = c.header.mapper := by rw [id_run, hid]
  have hrunPrg : (c.run ops).board.prgRom = (Image.slices data).prg := by rw [prgRom_run, hprg]
  have hrunSize : (c.run ops).board.prgRom.size = 0x4000 * c.header.prgUnits.toNat := by
    rw [hrunPrg, hsize]
  have hrunChr : (c.run ops).board.chr.bytes.size = 0x2000 * q := by rw [chr_size_run, hchrSize]
  intro prg board
  refine ⟨?_, ?_, ?_, ?_, ?_⟩
  · intro addr haddr
    have hin : board.prgOffset addr < prg.size := by
      rw [hsize]
      exact Board.prgOffset_lt hrunRange hrunSize hp haddr
    refine ⟨hin, ?_, ?_⟩
    · rw [← hrunId]
      exact Board.prgOffset_mod haddr
    · rw [Board.cpuRead_eq _ haddr, hrunPrg]
      exact dif_pos hin
  · intro addr haddr
    have hin : board.chrOffset addr < board.chr.bytes.size := by
      rw [hrunChr]
      exact Board.chrOffset_lt hrunRange hrunChr hq haddr
    refine ⟨hin, ?_, ?_⟩
    · rw [← hrunId]
      exact Board.chrOffset_mod
    · rw [Board.ppuRead_eq _ haddr]
      exact dif_pos hin
  · intro htwo addr haddr
    rw [hsize]
    exact (Board.prgOffset_fixed hrunRange hrunSize addr).1 (hrunId.trans htwo) haddr
  · intro hfour addr haddr
    rw [hsize]
    exact (Board.prgOffset_fixed hrunRange hrunSize addr).2 (hrunId.trans hfour) haddr
  · intro addr haddr
    exact Board.cpuRead_fixed hrange hrunRange (id_run c ops) (prgRom_run c ops)
      (hprg ▸ hsize) haddr

/-- Bank numbers beyond the two banks that there are. -/
theorem banked_reads_in_range_wrapped :
    ∃ c, ofBytes trainedImage.bytes = .ok c ∧ c.header.prgUnits ≠ 0 ∧
      (c.run [.cpuWrite 0x8000 6, .cpuWrite 0x8001 0xFF]).board.cpuRead 0x9234 = 0x60 := by
  have hslices : (Image.slices trainedImage.bytes).prg = Array.replicate 0x4000 0x60 := by
    rw [wellFormed_trainedImage.slices_bytes]
    rfl
  obtain ⟨c, hc⟩ := (exists_ofBytes_iff trainedImage.bytes).2
    ⟨(Image.fits_iff _).1 wellFormed_trainedImage.fits, by rw [Image.ofBytes_bytes]; decide⟩
  have hunits : c.header.prgUnits ≠ 0 := by
    obtain ⟨-, -, board, -, rfl⟩ := accepted_of_ok hc
    show (Image.slices trainedImage.bytes).header.prgUnits ≠ 0
    rw [wellFormed_trainedImage.slices_bytes]
    decide
  obtain ⟨hread, -⟩ := banked_reads_in_range hc hunits
    [.cpuWrite 0x8000 6, .cpuWrite 0x8001 0xFF]
  obtain ⟨hin, -, hbyte⟩ := hread 0x9234 (by decide)
  refine ⟨c, hc, hunits, ?_⟩
  rw [hbyte]
  simp only [hslices, Array.getElem_replicate]

end Cartridge

end Nes
