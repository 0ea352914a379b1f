import Nes.Proofs.Cartridge.Rom
import Nes.Proofs.Controller
import Nes.Proofs.Mainboard.Clocks
import Nes.Proofs.Mainboard.Reads
import Nes.Proofs.Mainboard.Stack

/-!
# Who an access reaches

An address has one owner for reads and one for writes, and an access changes its owner alone.  The
one way around is the data register, through which a write of the processor reaches the patterns
on the board.  The console's memory is therefore what was written to it, whatever else the bus and
the picture unit did in between.
-/

namespace Nes

/-! ### Devices -/

theorem AudioLatch.getElem_write (l : AudioLatch) {addr : UInt16} (v : UInt8) (i : Fin 0x18)
    (h : 0x4000 ≤ addr) :
    (l.write addr v).registers[i] = if addr.toNat = 0x4000 + i then v else l.registers[i] := by
  have hlow : 0x4000 ≤ addr.toNat := UInt16.le_iff_toNat_le.1 h
  have hindex : addr.toNat - 0x4000 = i ↔ addr.toNat = 0x4000 + i := by omega
  unfold write
  rw [if_neg (UInt16.not_lt.2 h)]
  simp [Vector.getElem_setIfInBounds, hindex]

namespace Ppu

variable (ppu : Ppu) (board : Board)

/-- A register write reaches the board through the data register alone. -/
theorem board_writeRegister (number b : UInt8) : (ppu.writeRegister board number b).2 =
    if number &&& 7 = 7 ∧ ppu.dataAddr < 0x2000 then board.ppuWrite ppu.dataAddr b else board := by
  unfold writeRegister
  generalize number &&& 7 = register
  split
  case h_5 =>
    simp only [writeData, true_and]
    repeat' split
    all_goals rfl
  all_goals simp_all

end Ppu

namespace Mainboard

/-! ### Owners -/

theorem ofWrite_iff (addr : UInt16) :
    (Owner.ofWrite addr = .ram ↔ addr < 0x2000) ∧
    (Owner.ofWrite addr = .ppu ↔ 0x2000 ≤ addr ∧ addr < 0x4000) ∧
    (Owner.ofWrite addr = .pads ↔ addr = 0x4016) ∧
    (Owner.ofWrite addr = .audio ↔ 0x4000 ≤ addr ∧ addr < 0x4018 ∧ addr ≠ 0x4016) ∧
    (Owner.ofWrite addr = .cartridge ↔ 0x6000 ≤ addr) := by
  unfold Owner.ofWrite
  simp only [UInt16.lt_iff_toNat_lt, UInt16.le_iff_toNat_le, ne_eq, ← UInt16.toNat_inj]
  repeat' split
  all_goals simp_all
  all_goals omega

theorem ofRead_iff (addr : UInt16) :
    (Owner.ofRead addr = .ppu ↔ 0x2000 ≤ addr ∧ addr < 0x4000) ∧
    (Owner.ofRead addr = .pad1 ↔ addr = 0x4016) ∧
    (Owner.ofRead addr = .pad2 ↔ addr = 0x4017) := by
  unfold Owner.ofRead
  simp only [UInt16.lt_iff_toNat_lt, UInt16.le_iff_toNat_le, ← UInt16.toNat_inj]
  repeat' split
  all_goals simp_all
  all_goals omega

/-- The status register and its mirrors. -/
def StatusPort (addr : UInt16) : Prop := 0x2000 ≤ addr ∧ addr < 0x4000 ∧ addr % 8 = 2

variable (m : Mainboard AudioLatch) (addr : UInt16) (v : UInt8)

/-! ### Writes -/

theorem parts_write :
    (Bus.write m addr v).ram = (if Owner.ofWrite addr = .ram then m.ram.set addr v else m.ram) ∧
    (Bus.write m addr v).pad1 = (if Owner.ofWrite addr = .pads then m.pad1.write v else m.pad1) ∧
    (Bus.write m addr v).pad2 = (if Owner.ofWrite addr = .pads then m.pad2.write v else m.pad2) ∧
    (Bus.write m addr v).audio =
      (if Owner.ofWrite addr = .audio then m.audio.write addr v else m.audio) ∧
    (Bus.write m addr v).ppu =
      (if Owner.ofWrite addr = .ppu then
          (m.ppu.writeRegister m.cartridge.board addr.toUInt8 v).1
        else m.ppu) ∧
    (Bus.write m addr v).cartridge = { m.cartridge with
      board :=
        if Owner.ofWrite addr = .cartridge then m.cartridge.board.cpuWrite addr v
        else if Owner.ofWrite addr = .ppu then
          (m.ppu.writeRegister m.cartridge.board addr.toUInt8 v).2
        else m.cartridge.board } := by
  have hwrite : Bus.write m addr v = m.write addr v := rfl
  rw [hwrite]
  unfold write
  cases Owner.ofWrite addr with
  | cartridge =>
    simp only [writeBoard]
    split <;> simp [onPicture, onJournal]
  | ppu => simp [onPicture]
  | audio => simp [onAudio, AudioUnit.write]
  | _ => simp [onRam, onPads]

/-- What a write does to each part of the console. -/
structure WriteEffect : Prop where
  ram : ∀ other : UInt16, (Bus.write m addr v).ram.get other =
    if addr < 0x2000 ∧ addr.toNat % 0x800 = other.toNat % 0x800 then v else m.ram.get other
  pads : (Bus.write m addr v).pad1 = (if addr = 0x4016 then m.pad1.write v else m.pad1) ∧
    (Bus.write m addr v).pad2 = if addr = 0x4016 then m.pad2.write v else m.pad2
  audio : (Bus.write m addr v).audio.steps = m.audio.steps ∧
    ∀ i : Fin 0x18, (Bus.write m addr v).audio.registers[i] =
      if addr.toNat = 0x4000 + i ∧ addr ≠ 0x4016 then v else m.audio.registers[i]
  ppu : (Bus.write m addr v).ppu =
    if 0x2000 ≤ addr ∧ addr < 0x4000 then
      (m.ppu.writeRegister m.cartridge.board addr.toUInt8 v).1
    else m.ppu
  cartridge : (Bus.write m addr v).cartridge = { m.cartridge with
    board :=
      if 0x6000 ≤ addr then m.cartridge.board.cpuWrite addr v
      else if DataPort addr ∧ (m.ppu.scroll.v &&& 0x3FFF) < 0x2000 then
        m.cartridge.board.ppuWrite (m.ppu.scroll.v &&& 0x3FFF) v
      else m.cartridge.board }

theorem ram_write (other : UInt16) : (Bus.write m addr v).ram.get other =
    if addr < 0x2000 ∧ addr.toNat % 0x800 = other.toNat % 0x800 then v else m.ram.get other := by
  obtain ⟨hram, -⟩ := m.parts_write addr v
  rw [hram]
  simp only [(ofWrite_iff addr).1]
  by_cases hlow : addr < 0x2000
  · by_cases hcell : addr.toNat % 0x800 = other.toNat % 0x800
    · rw [if_pos hlow, if_pos ⟨hlow, hcell⟩, m.ram.get_set_of_mod_eq v hcell]
    · rw [if_pos hlow, if_neg fun h => hcell h.2, m.ram.get_set_of_mod_ne v hcell]
  · rw [if_neg hlow, if_neg fun h => hlow h.1]

theorem audio_write : (Bus.write m addr v).audio.steps = m.audio.steps ∧
    ∀ i : Fin 0x18, (Bus.write m addr v).audio.registers[i] =
      if addr.toNat = 0x4000 + i ∧ addr ≠ 0x4016 then v else m.audio.registers[i] := by
  obtain ⟨-, -, -, haudio, -⟩ := m.parts_write addr v
  rw [haudio]
  by_cases howner : Owner.ofWrite addr = .audio
  · obtain ⟨hlow, hhigh, hne⟩ := (ofWrite_iff addr).2.2.2.1.1 howner
    rw [if_pos howner]
    refine ⟨m.audio.steps_write addr v, ?_⟩
    intro i
    rw [m.audio.getElem_write v i hlow]
    simp [hne]
  · rw [if_neg howner]
    refine ⟨rfl, ?_⟩
    intro i
    have hrange := mt (ofWrite_iff addr).2.2.2.1.2 howner
    have hnot : ¬ (addr.toNat = 0x4000 + i ∧ addr ≠ 0x4016) := by
      rintro ⟨hi, hne⟩
      have hlt := i.isLt
      refine hrange ⟨UInt16.le_iff_toNat_le.2 ?_, UInt16.lt_iff_toNat_lt.2 ?_, hne⟩
      · show 0x4000 ≤ addr.toNat
        omega
      · show addr.toNat < 0x4018
        omega
    rw [if_neg hnot]

theorem writeEffect : m.WriteEffect addr v := by
  obtain ⟨-, hpad1, hpad2, -, hppu, hcartridge⟩ := m.parts_write addr v
  obtain ⟨-, hisPpu, hisPads, -, hisCartridge⟩ := ofWrite_iff addr
  constructor
  case ram => exact m.ram_write addr v
  case pads =>
    simp only [hisPads] at hpad1 hpad2
    exact ⟨hpad1, hpad2⟩
  case audio => exact m.audio_write addr v
  case ppu => simpa only [hisPpu] using hppu
  case cartridge =>
    have hnumber : addr.toUInt8 &&& 7 = 7 ↔ addr % 8 = 7 := lowBits_eq addr rfl
    have hport : (0x2000 ≤ addr ∧ addr < 0x4000) ∧ addr.toUInt8 &&& 7 = 7 ↔ DataPort addr := by
      rw [hnumber, and_assoc]
      rfl
    rw [hcartridge, Ppu.board_writeRegister]
    simp only [hisPpu, hisCartridge, ← ite_and, ← and_assoc, hport]
    rfl

/-! ### Reads -/

/-- What a read changes: a flag and the toggle, an address and the buffer, one controller's shift
register, or nothing at all. -/
structure ReadEffect : Prop where
  status : StatusPort addr → (Bus.read m addr).2 = { m with
    ppu := { m.ppu with vblank := false, scroll := { m.ppu.scroll with second := false } } }
  data : DataPort addr → ∃ address buffer, (Bus.read m addr).2 = { m with
    ppu := { m.ppu with scroll := { m.ppu.scroll with v := address }, buffer } }
  pad1 : addr = 0x4016 → m.pad1.strobe = false → ∃ shift remaining,
    (Bus.read m addr).2 = { m with pad1 := { m.pad1 with shift, remaining } }
  pad2 : addr = 0x4017 → m.pad2.strobe = false → ∃ shift remaining,
    (Bus.read m addr).2 = { m with pad2 := { m.pad2 with shift, remaining } }
  others : ¬ StatusPort addr → ¬ DataPort addr → ¬ (addr = 0x4016 ∧ m.pad1.strobe = false) →
    ¬ (addr = 0x4017 ∧ m.pad2.strobe = false) → (Bus.read m addr).2 = m

theorem read_ppu {addr : UInt16} (h : 0x2000 ≤ addr ∧ addr < 0x4000) :
    Bus.read m addr = m.askPpu fun ppu board => ppu.readRegister board addr.toUInt8 := by
  have howner := (ofRead_iff addr).1.2 h
  show m.read addr = _
  unfold read
  rw [howner]

theorem read_statusPort {addr : UInt16} (h : StatusPort addr) :
    Bus.read m addr = m.askPpu fun ppu _ => ppu.readStatus := by
  have hnumber : addr.toUInt8 &&& 7 = 2 := (lowBits_eq addr rfl).2 h.2.2
  rw [m.read_ppu ⟨h.1, h.2.1⟩]
  simp only [Ppu.readRegister, hnumber]

theorem read_otherPort {addr : UInt16} (h : 0x2000 ≤ addr ∧ addr < 0x4000)
    (hstatus : ¬ StatusPort addr) (hdata : ¬ DataPort addr) : (Bus.read m addr).2 = m := by
  have htwo : addr.toUInt8 &&& 7 ≠ 2 := fun hn =>
    hstatus ⟨h.1, h.2, (lowBits_eq addr rfl).1 hn⟩
  have hseven : addr.toUInt8 &&& 7 ≠ 7 := fun hn => hdata ⟨h.1, h.2, (lowBits_eq addr rfl).1 hn⟩
  rw [m.read_ppu h]
  unfold Ppu.readRegister
  split
  case h_1 hn => exact absurd hn htwo
  case h_2 hn => exact absurd hn hseven
  case h_3 => rfl

theorem read_pad1 : Bus.read m 0x4016 = m.askPad .first Controller.read := rfl

theorem read_pad2 : Bus.read m 0x4017 = m.askPad .second Controller.read := rfl

theorem readEffect : m.ReadEffect addr := by
  constructor
  case status =>
    intro h
    rw [m.read_statusPort h]
    rfl
  case data =>
    intro h
    obtain ⟨address, buffer, hread⟩ := m.ppu.readData_eq m.cartridge.board
    rw [m.read_dataPort h]
    exact ⟨address, buffer, congrArg (fun ppu => { m with ppu }) hread⟩
  case pad1 =>
    rintro rfl -
    obtain ⟨shift, remaining, hread⟩ := m.pad1.read_eq
    exact ⟨shift, remaining, congrArg (fun pad1 => { m with pad1 }) hread⟩
  case pad2 =>
    rintro rfl -
    obtain ⟨shift, remaining, hread⟩ := m.pad2.read_eq
    exact ⟨shift, remaining, congrArg (fun pad2 => { m with pad2 }) hread⟩
  case others =>
    intro hstatus hdata hpad1 hpad2
    obtain ⟨hppu, hfirst, hsecond⟩ := ofRead_iff addr
    have hread : Bus.read m addr = m.read addr := rfl
    cases howner : Owner.ofRead addr with
    | ppu => exact m.read_otherPort (hppu.1 howner) hstatus hdata
    | pad1 =>
      obtain rfl := hfirst.1 howner
      have hstrobe : m.pad1.strobe = true := by simpa using hpad1
      rw [read_pad1]
      exact congrArg (fun pad1 => { m with pad1 }) (m.pad1.read_of_strobe hstrobe)
    | pad2 =>
      obtain rfl := hsecond.1 howner
      have hstrobe : m.pad2.strobe = true := by simpa using hpad2
      rw [read_pad2]
      exact congrArg (fun pad2 => { m with pad2 }) (m.pad2.read_of_strobe hstrobe)
    | audio =>
      rw [hread, Mainboard.read, howner]
      rfl
    | _ => rw [hread, Mainboard.read, howner]

/-! ### The console's memory -/

/-- What can happen on the bus and beside it. -/
inductive Op
  | read (addr : UInt16)
  | write (addr : UInt16) (v : UInt8)
  | dot

def apply (m : Mainboard AudioLatch) : Op → Mainboard AudioLatch
  | .read addr => (Bus.read m addr).2
  | .write addr v => Bus.write m addr v
  | .dot => m.tick

def run (m : Mainboard AudioLatch) (ops : List Op) : Mainboard AudioLatch := ops.foldl apply m

/-- What an operation puts into the cell of an address. -/
def Op.stored? (addr : UInt16) : Op → Option UInt8
  | .write other v =>
    if other < 0x2000 ∧ other.toNat % 0x800 = addr.toNat % 0x800 then some v else none
  | _ => none

def lastWritten? (ops : List Op) (addr : UInt16) : Option UInt8 :=
  (ops.filterMap (Op.stored? addr)).getLast?

theorem lastWritten?_cons (op : Op) (ops : List Op) (addr : UInt16) :
    lastWritten? (op :: ops) addr = (lastWritten? ops addr).or (op.stored? addr) := by
  unfold lastWritten?
  cases h : op.stored? addr with
  | none => simp [h]
  | some v =>
    rw [List.filterMap_cons_some h, List.getLast?_cons]
    cases (ops.filterMap (Op.stored? addr)).getLast? <;> rfl

theorem ram_tick : m.tick.ram = m.ram := by
  unfold tick
  dsimp only
  split <;> rfl

theorem get_apply (op : Op) (addr : UInt16) :
    (m.apply op).ram.get addr = (op.stored? addr).getD (m.ram.get addr) := by
  cases op with
  | read other => exact congrArg (·.get addr) (m.ram_read other)
  | write other v =>
    show (Bus.write m other v).ram.get addr = _
    by_cases hcell : other < 0x2000 ∧ other.toNat % 0x800 = addr.toNat % 0x800 <;>
      simp [ram_write, Op.stored?, hcell]
  | dot => exact congrArg (·.get addr) m.ram_tick

theorem get_run (ops : List Op) (addr : UInt16) :
    (m.run ops).ram.get addr = (lastWritten? ops addr).getD (m.ram.get addr) := by
  induction ops generalizing m with
  | nil => rfl
  | cons op ops ih =>
    show ((m.apply op).run ops).ram.get addr = _
    rw [ih, get_apply, lastWritten?_cons]
    cases lastWritten? ops addr <;> rfl

/-- Every access changes its owner alone, and the console's memory holds what was written to it
last. -/
theorem one_owner :
    (∀ (m : Mainboard AudioLatch) (addr : UInt16) (v : UInt8), m.WriteEffect addr v) ∧
    (∀ (m : Mainboard AudioLatch) (addr : UInt16), m.ReadEffect addr) ∧
    (∀ (cartridge : Cartridge) (journal : Journal) (ops : List Op) (addr : UInt16),
      addr < 0x2000 →
      (Bus.read ((powerOn cartridge ({} : AudioLatch) journal).run ops) addr).1 =
        (lastWritten? ops addr).getD 0) := by
  refine ⟨writeEffect, readEffect, ?_⟩
  intro cartridge journal ops addr h
  have hzero : (powerOn cartridge ({} : AudioLatch) journal).ram.get addr = 0 :=
    Memory.get_filled 0 addr
  rw [read_ram _ h, get_run, hzero]

/-- Of two writes to mirrors of a cell the later one counts; a write to a register at an address
that agrees with the cell's, a dot and a read do not. -/
theorem one_owner_mirrors :
    let m := (powerOn Cartridge.blankNrom ({} : AudioLatch) ⟨none, #[]⟩).run
      [.write 0x0001 5, .write 0x0801 7, .dot, .write 0x2001 0xFF, .read 0x2002]
    (Bus.read m 0x1801).1 = 7 ∧ (Bus.read m 0x0002).1 = 0 := by
  obtain ⟨-, -, hram⟩ := one_owner
  refine ⟨?_, ?_⟩
  · exact hram Cartridge.blankNrom ⟨none, #[]⟩ _ 0x1801 (by decide)
  · exact hram Cartridge.blankNrom ⟨none, #[]⟩ _ 0x0002 (by decide)

end Mainboard

end Nes
