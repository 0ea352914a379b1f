import Nes.Cartridge
import Nes.Proofs.Mmc3.Run

/-!
# Runs of a cartridge

A cartridge in use is written to from both sides, clocked, and given trainers and saves.  None of
this reaches program memory, and character memory changes only by writes to its chip.
-/

namespace Nes

namespace Board

def prgRom : Board → Array UInt8
  | nrom b => b.prg
  | uxrom b => b.prg
  | mmc3 b => b.prg

def chr : Board → Chr
  | nrom b => b.chr
  | uxrom b => b.chr
  | mmc3 b => b.chr

theorem prgRom_cpuWrite (b : Board) (addr : UInt16) (v : UInt8) :
    (b.cpuWrite addr v).prgRom = b.prgRom := by
  unfold cpuWrite
  split
  · rfl
  · cases b with
    | nrom b => rfl
    | uxrom b =>
      simp only [Uxrom.cpuWrite]
      repeat' split
      all_goals rfl
    | mmc3 b => exact Mmc3.prg_cpuWrite b addr v

theorem chr_cpuWrite (b : Board) (addr : UInt16) (v : UInt8) :
    (b.cpuWrite addr v).chr = b.chr := by
  unfold cpuWrite
  split
  · rfl
  · cases b with
    | nrom b => rfl
    | uxrom b =>
      simp only [Uxrom.cpuWrite]
      repeat' split
      all_goals rfl
    | mmc3 b => exact Mmc3.chr_cpuWrite b addr v

theorem prgRom_ppuWrite (b : Board) (addr : UInt16) (v : UInt8) :
    (b.ppuWrite addr v).prgRom = b.prgRom := by
  unfold ppuWrite
  split
  · cases b with
    | nrom b => rfl
    | uxrom b => rfl
    | mmc3 b => exact Mmc3.prg_ppuWrite b addr v
  · rfl

def chrOffset (b : Board) (addr : UInt16) : Nat :=
  match b with
  | nrom _ | uxrom _ => addr.toNat
  | mmc3 b => b.chrOffset addr

theorem chr_ppuWrite (b : Board) (addr : UInt16) (v : UInt8) :
    (b.ppuWrite addr v).chr =
      if addr < 0x2000 then b.chr.write (b.chrOffset addr) v else b.chr := by
  unfold ppuWrite
  split
  case isTrue h =>
    cases b with
    | nrom b => rfl
    | uxrom b => rfl
    | mmc3 b =>
      show (b.ppuWrite addr v).chr = _
      rw [Mmc3.chr_ppuWrite]
      simp only [h, ite_true]
      rfl
  · rfl

@[simp] theorem prgRom_onPrgRam (b : Board) (f : PrgRam → PrgRam) :
    (b.onPrgRam f).prgRom = b.prgRom := by
  cases b <;> rfl

@[simp] theorem chr_onPrgRam (b : Board) (f : PrgRam → PrgRam) : (b.onPrgRam f).chr = b.chr := by
  cases b <;> rfl

theorem prgRom_loadTrainer (b : Board) (trainer : Array UInt8) :
    (b.loadTrainer trainer).2.prgRom = b.prgRom := by
  unfold loadTrainer
  split
  · exact prgRom_onPrgRam b (·.overlay 0x1000 trainer.toList)
  · rfl

theorem chr_loadTrainer (b : Board) (trainer : Array UInt8) :
    (b.loadTrainer trainer).2.chr = b.chr := by
  unfold loadTrainer
  split
  · exact chr_onPrgRam b (·.overlay 0x1000 trainer.toList)
  · rfl

theorem chrOffset_loadTrainer (b : Board) (trainer : Array UInt8) (addr : UInt16) :
    (b.loadTrainer trainer).2.chrOffset addr = b.chrOffset addr := by
  unfold loadTrainer
  split
  · cases b <;> rfl
  · rfl

@[simp] theorem prgRom_clockScanline (b : Board) : b.clockScanline.prgRom = b.prgRom := by
  cases b <;> rfl

@[simp] theorem chr_clockScanline (b : Board) : b.clockScanline.chr = b.chr := by
  cases b <;> rfl

theorem id_cpuWrite (b : Board) (addr : UInt16) (v : UInt8) : (b.cpuWrite addr v).id = b.id := by
  unfold cpuWrite
  split
  · rfl
  · cases b <;> rfl

theorem id_ppuWrite (b : Board) (addr : UInt16) (v : UInt8) : (b.ppuWrite addr v).id = b.id := by
  unfold ppuWrite
  split
  · cases b <;> rfl
  · rfl

theorem id_loadTrainer (b : Board) (trainer : Array UInt8) :
    (b.loadTrainer trainer).2.id = b.id := by
  unfold loadTrainer
  split
  · exact id_onPrgRam b (·.overlay 0x1000 trainer.toList)
  · rfl

@[simp] theorem id_clockScanline (b : Board) : b.clockScanline.id = b.id := by
  cases b <;> rfl

end Board

namespace Cartridge

/-- What can happen to a cartridge. -/
inductive Op
  | cpuWrite (addr : UInt16) (v : UInt8)
  | ppuWrite (addr : UInt16) (v : UInt8)
  | loadTrainer (bytes : Array UInt8)
  | loadPrgRam (bytes : Array UInt8)
  | clock

def apply (c : Cartridge) : Op → Cartridge
  | .cpuWrite addr v => { c with board := c.board.cpuWrite addr v }
  | .ppuWrite addr v => { c with board := c.board.ppuWrite addr v }
  | .loadTrainer bytes => { c with board := (c.board.loadTrainer bytes).2 }
  | .loadPrgRam bytes => (c.loadPrgRam bytes).2
  | .clock => { c with board := c.board.clockScanline }

def run (c : Cartridge) (ops : List Op) : Cartridge := ops.foldl apply c

theorem prgRom_apply (c : Cartridge) (op : Op) : (c.apply op).board.prgRom = c.board.prgRom := by
  cases op with
  | cpuWrite addr v => exact Board.prgRom_cpuWrite c.board addr v
  | ppuWrite addr v => exact Board.prgRom_ppuWrite c.board addr v
  | loadTrainer bytes => exact Board.prgRom_loadTrainer c.board bytes
  | loadPrgRam bytes => exact Board.prgRom_onPrgRam c.board (·.overlay 0 bytes.toList)
  | clock => exact Board.prgRom_clockScanline c.board

theorem chr_apply (c : Cartridge) (op : Op) :
    (c.apply op).board.chr = c.board.chr ∨
      ∃ offset v, (c.apply op).board.chr = c.board.chr.write offset v := by
  cases op with
  | cpuWrite addr v => exact Or.inl (Board.chr_cpuWrite c.board addr v)
  | ppuWrite addr v =>
    have h : (c.apply (.ppuWrite addr v)).board.chr = _ := Board.chr_ppuWrite c.board addr v
    by_cases hlow : addr < 0x2000
    · rw [h, if_pos hlow]
      exact Or.inr ⟨_, _, rfl⟩
    · rw [h, if_neg hlow]
      exact Or.inl rfl
  | loadTrainer bytes => exact Or.inl (Board.chr_loadTrainer c.board bytes)
  | loadPrgRam bytes => exact Or.inl (Board.chr_onPrgRam c.board (·.overlay 0 bytes.toList))
  | clock => exact Or.inl (Board.chr_clockScanline c.board)

theorem id_apply (c : Cartridge) (op : Op) : (c.apply op).board.id = c.board.id := by
  cases op with
  | cpuWrite addr v => exact Board.id_cpuWrite c.board addr v
  | ppuWrite addr v => exact Board.id_ppuWrite c.board addr v
  | loadTrainer bytes => exact Board.id_loadTrainer c.board bytes
  | loadPrgRam bytes => exact Board.id_onPrgRam c.board (·.overlay 0 bytes.toList)
  | clock => exact Board.id_clockScanline c.board

theorem prgRom_run (c : Cartridge) (ops : List Op) : (c.run ops).board.prgRom = c.board.prgRom := by
  induction ops generalizing c with
  | nil => rfl
  | cons op ops ih =>
    show ((c.apply op).run ops).board.prgRom = c.board.prgRom
    rw [ih, prgRom_apply]

theorem id_run (c : Cartridge) (ops : List Op) : (c.run ops).board.id = c.board.id := by
  induction ops generalizing c with
  | nil => rfl
  | cons op ops ih =>
    show ((c.apply op).run ops).board.id = c.board.id
    rw [ih, id_apply]

theorem chr_size_run (c : Cartridge) (ops : List Op) :
    (c.run ops).board.chr.bytes.size = c.board.chr.bytes.size := by
  induction ops generalizing c with
  | nil => rfl
  | cons op ops ih =>
    have hstep : (c.apply op).board.chr.bytes.size = c.board.chr.bytes.size := by
      rcases chr_apply c op with hsame | ⟨offset, v, hwritten⟩
      · rw [hsame]
      · rw [hwritten, Chr.size_write]
    show ((c.apply op).run ops).board.chr.bytes.size = c.board.chr.bytes.size
    rw [ih, hstep]

theorem chr_run_of_not_writable (c : Cartridge) (ops : List Op)
    (h : c.board.chr.writable = false) : (c.run ops).board.chr = c.board.chr := by
  induction ops generalizing c with
  | nil => rfl
  | cons op ops ih =>
    have hstep : (c.apply op).board.chr = c.board.chr := by
      rcases chr_apply c op with same | ⟨offset, v, written⟩
      · exact same
      · rw [written, Chr.write_of_not_writable _ _ _ h]
    show ((c.apply op).run ops).board.chr = c.board.chr
    rw [ih _ (by rw [hstep]; exact h), hstep]

end Cartridge

end Nes
