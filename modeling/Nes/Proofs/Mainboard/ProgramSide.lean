import Nes.Proofs.Cartridge.Run
import Nes.Proofs.Cpu.Dialogue
import Nes.Proofs.Mainboard.Dots
import Nes.Proofs.Mainboard.Reads

/-!
# The program's side of the mainboard

The picture unit can make itself felt in four ways: through its status register, through its data
register, and by the two interrupts.  Without these a program sees the memories, the controllers,
the audio unit and the board as its own writes made them.  Of a board the character memory and the
scanline counter are then out of sight; only the size of the former counts, in the layout of bank
windows.
-/

namespace Nes

/-! ### Boards -/

namespace Mmc3

/-- A board without what the picture unit changes. -/
def programSide (b : Mmc3) : Mmc3 :=
  { b with chr := ⟨.replicate b.chr.bytes.size 0, false⟩, irq := {} }

theorem programSide_writeRegister (b : Mmc3) (register : Register) (v : UInt8) :
    (b.writeRegister register v).programSide =
      (b.programSide.writeRegister register v).programSide := by
  cases register <;> simp [writeRegister, programSide, chrBanks, prgBanks]

theorem programSide_cpuWrite (b : Mmc3) (addr : UInt16) (v : UInt8) :
    (b.cpuWrite addr v).programSide = (b.programSide.cpuWrite addr v).programSide := by
  unfold cpuWrite
  repeat' split
  · simp [programSide]
  · simp [programSide, writeRam]
  · exact b.programSide_writeRegister _ v

theorem programSide_ppuWrite (b : Mmc3) (addr : UInt16) (v : UInt8) :
    (b.ppuWrite addr v).programSide = b.programSide := by
  by_cases h : addr < 0x2000
  · simp [ppuWrite, programSide, h]
  · simp [ppuWrite, h]

/-- The registers other than the one that turns interrupts on. -/
theorem enabled_writeRegister (b : Mmc3) {register : Register} (v : UInt8)
    (h : register ≠ .irqEnable) (hoff : b.irq.enabled = false ∧ b.irq.pending = false) :
    (b.writeRegister register v).irq.enabled = false ∧
      (b.writeRegister register v).irq.pending = false := by
  cases register with
  | irqEnable => exact absurd rfl h
  | irqDisable => exact ⟨rfl, rfl⟩
  | _ => exact hoff

end Mmc3

namespace Board

def programSide : Board → Board
  | nrom b => nrom { b with chr := ⟨#[], false⟩ }
  | uxrom b => uxrom { b with chr := ⟨#[], false⟩ }
  | mmc3 b => mmc3 b.programSide

theorem id_programSide (b : Board) : b.programSide.id = b.id := by
  cases b <;> rfl

theorem id_of_programSide {b other : Board} (h : b.programSide = other.programSide) :
    b.id = other.id := by
  rw [← b.id_programSide, h, id_programSide]

theorem cpuRead_programSide (b : Board) (addr : UInt16) :
    b.programSide.cpuRead addr = b.cpuRead addr := by
  cases b <;> rfl

theorem programSide_cpuWrite (b : Board) (addr : UInt16) (v : UInt8) :
    (b.cpuWrite addr v).programSide = (b.programSide.cpuWrite addr v).programSide := by
  unfold cpuWrite
  split
  · cases b with
    | nrom b => rfl
    | uxrom b => rfl
    | mmc3 b => simp [programSide, Mmc3.programSide]
  · cases b with
    | nrom b => rfl
    | uxrom b =>
      simp only [programSide, Uxrom.cpuWrite]
      repeat' split
      all_goals rfl
    | mmc3 b => exact congrArg mmc3 (b.programSide_cpuWrite addr v)

theorem programSide_ppuWrite (b : Board) (addr : UInt16) (v : UInt8) :
    (b.ppuWrite addr v).programSide = b.programSide := by
  unfold ppuWrite
  split
  · cases b with
    | nrom b => rfl
    | uxrom b => rfl
    | mmc3 b => exact congrArg mmc3 (b.programSide_ppuWrite addr v)
  · rfl

theorem programSide_clockScanline (b : Board) : b.clockScanline.programSide = b.programSide := by
  cases b <;> rfl

/-- An MMC3's interrupts are off. -/
def Disarmed : Board → Prop
  | mmc3 b => b.irq.enabled = false ∧ b.irq.pending = false
  | _ => True

theorem Disarmed.irqPending {b : Board} (h : b.Disarmed) : b.irqPending = false := by
  cases b with
  | nrom b => rfl
  | uxrom b => rfl
  | mmc3 b => exact h.2

theorem Disarmed.clockScanline {b : Board} (h : b.Disarmed) : b.clockScanline.Disarmed := by
  cases b with
  | nrom b => trivial
  | uxrom b => trivial
  | mmc3 b =>
    obtain ⟨henabled, hpending⟩ := h
    simp only [Disarmed, Board.clockScanline, Mmc3.clockScanline, ScanlineCounter.clock]
    split
    · exact ⟨henabled, hpending⟩
    · simp [henabled, hpending]

theorem Disarmed.ppuWrite {b : Board} (h : b.Disarmed) (addr : UInt16) (v : UInt8) :
    (b.ppuWrite addr v).Disarmed := by
  unfold Board.ppuWrite
  split
  · cases b with
    | nrom b => trivial
    | uxrom b => trivial
    | mmc3 b =>
      simp only [Disarmed, Mmc3.ppuWrite]
      split <;> exact h
  · exact h

theorem Disarmed.cpuWrite {b : Board} (h : b.Disarmed) {addr : UInt16} (v : UInt8)
    (hgood : ¬ (b.id = 4 ∧ 0xE000 ≤ addr ∧ addr % 2 = 1)) : (b.cpuWrite addr v).Disarmed := by
  unfold Board.cpuWrite
  split
  · exact h
  · cases b with
    | nrom b => trivial
    | uxrom b => trivial
    | mmc3 b =>
      have hregister : Mmc3.Register.ofAddr addr ≠ .irqEnable :=
        mt (Mmc3.ofAddr_irqEnable_iff addr).1 fun hodd => hgood ⟨rfl, hodd⟩
      simp only [Disarmed, Mmc3.cpuWrite]
      repeat' split
      · exact h
      · exact h
      · exact b.enabled_writeRegister v hregister h

end Board

/-! ### Accesses that reach the picture unit's doings -/

/-- An access by which a program on a board of the given number observes the picture unit: a read
of the status or the data register, or a write that turns one of the interrupts on. -/
def Access.Observes (id : UInt8) : Access → Prop
  | .read addr _ => 0x2000 ≤ addr ∧ addr < 0x4000 ∧ (addr % 8 = 2 ∨ addr % 8 = 7)
  | .write addr v =>
    (0x2000 ≤ addr ∧ addr < 0x4000 ∧ addr % 8 = 0 ∧ testBits v 0x80 = true) ∨
      (id = 4 ∧ 0xE000 ≤ addr ∧ addr % 2 = 1)

instance (id : UInt8) : DecidablePred (Access.Observes id)
  | .read addr _ => inferInstanceAs
    (Decidable (0x2000 ≤ addr ∧ addr < 0x4000 ∧ (addr % 8 = 2 ∨ addr % 8 = 7)))
  | .write addr v => inferInstanceAs (Decidable
    ((0x2000 ≤ addr ∧ addr < 0x4000 ∧ addr % 8 = 0 ∧ testBits v 0x80 = true) ∨
      (id = 4 ∧ 0xE000 ≤ addr ∧ addr % 2 = 1)))

namespace Ppu

theorem readRegister_silent (ppu : Ppu) (board : Board) {number : UInt8}
    (hstatus : number &&& 7 ≠ 2) (hdata : number &&& 7 ≠ 7) :
    ppu.readRegister board number = (0, ppu) := by
  unfold readRegister
  split
  · exact absurd ‹_› hstatus
  · exact absurd ‹_› hdata
  · rfl

theorem programSide_writeRegister (ppu : Ppu) (board : Board) (number b : UInt8) :
    (ppu.writeRegister board number b).2.programSide = board.programSide := by
  obtain ⟨_, _, _, _, written, hwrite, rfl | ⟨addr, rfl⟩⟩ := ppu.writeRegister_eq board number b
  · rw [hwrite]
  · rw [hwrite]
    exact board.programSide_ppuWrite addr b

theorem disarmed_writeRegister (ppu : Ppu) {board : Board} (h : board.Disarmed)
    (number b : UInt8) : (ppu.writeRegister board number b).2.Disarmed := by
  obtain ⟨_, _, _, _, written, hwrite, rfl | ⟨addr, rfl⟩⟩ := ppu.writeRegister_eq board number b
  · rw [hwrite]
    exact h
  · rw [hwrite]
    exact h.ppuWrite addr b

theorem nmiEnabled_writeRegister (ppu : Ppu) (board : Board) {number b : UInt8}
    (h : ppu.nmiEnabled = false) (hcontrol : number &&& 7 = 0 → testBits b 0x80 = false) :
    (ppu.writeRegister board number b).1.nmiEnabled = false := by
  obtain ⟨_, _, _, _, _, hwrite, -⟩ := ppu.writeRegister_eq board number b
  rw [hwrite]
  unfold nmiEnabled
  by_cases hnumber : number &&& 7 = 0
  · rw [if_pos hnumber]
    exact hcontrol hnumber
  · rw [if_neg hnumber]
    exact h

end Ppu

/-! ### The mainboard -/

/-- What a program sees that does not observe the picture unit. -/
structure ProgramView where
  ram : ConsoleRam
  pad1 : Controller
  pad2 : Controller
  audio : AudioLatch
  board : Board

namespace Mainboard

def programView (m : Mainboard AudioLatch) : ProgramView :=
  ⟨m.ram, m.pad1, m.pad2, m.audio, m.cartridge.board.programSide⟩

/-- Neither interrupt can come up. -/
structure Quiet (m : Mainboard AudioLatch) : Prop where
  latch : m.ppu.nmi = false
  masked : m.ppu.nmiEnabled = false
  disarmed : m.cartridge.board.Disarmed

/-- Two mainboards that a program cannot tell apart without observing the picture unit. -/
structure SameView (id : UInt8) (m other : Mainboard AudioLatch) : Prop where
  view : m.programView = other.programView
  id : m.cartridge.board.id = id
  quiet : m.Quiet
  quiet' : other.Quiet

variable {m other : Mainboard AudioLatch}

theorem Quiet.congr (h : m.Quiet) (hppu : other.ppu = m.ppu)
    (hboard : other.cartridge.board = m.cartridge.board) : other.Quiet := by
  obtain ⟨hlatch, hmasked, hdisarmed⟩ := h
  rw [← hppu] at hlatch hmasked
  rw [← hboard] at hdisarmed
  exact ⟨hlatch, hmasked, hdisarmed⟩

theorem view_congr (hram : m.ram = other.ram) (hpad1 : m.pad1 = other.pad1)
    (hpad2 : m.pad2 = other.pad2) (haudio : m.audio = other.audio)
    (hboard : m.cartridge.board.programSide = other.cartridge.board.programSide) :
    m.programView = other.programView := by
  unfold programView
  rw [hram, hpad1, hpad2, haudio, hboard]

theorem id_of_view (h : m.programView = other.programView) :
    m.cartridge.board.id = other.cartridge.board.id :=
  Board.id_of_programSide (congrArg ProgramView.board h)

/-! ### Reads -/

theorem askPpu_silent (m : Mainboard AudioLatch) {id : UInt8} {addr : UInt16} {v : UInt8}
    (howner : Owner.ofRead addr = .ppu) (hgood : ¬ (Access.read addr v).Observes id) :
    m.askPpu (fun ppu board => ppu.readRegister board addr.toUInt8) = (0, m) := by
  obtain ⟨hlow, hhigh⟩ := ofRead_eq_ppu howner
  have hstatus : addr.toUInt8 &&& 7 ≠ 2 := fun heq =>
    hgood ⟨hlow, hhigh, .inl ((lowBits_eq addr rfl).1 heq)⟩
  have hdata : addr.toUInt8 &&& 7 ≠ 7 := fun heq =>
    hgood ⟨hlow, hhigh, .inr ((lowBits_eq addr rfl).1 heq)⟩
  unfold askPpu
  dsimp only
  rw [m.ppu.readRegister_silent _ hstatus hdata]

theorem view_read (h : m.programView = other.programView) {id : UInt8} {addr : UInt16} {v : UInt8}
    (hgood : ¬ (Access.read addr v).Observes id) :
    (Bus.read m addr).1 = (Bus.read other addr).1 ∧
      (Bus.read m addr).2.programView = (Bus.read other addr).2.programView := by
  obtain ⟨hram, hpad1, hpad2, haudio, hboard⟩ := ProgramView.mk.inj h
  show (m.read addr).1 = (other.read addr).1 ∧
    (m.read addr).2.programView = (other.read addr).2.programView
  unfold read
  cases howner : Owner.ofRead addr with
  | ram => exact ⟨congrArg (·.get addr) hram, h⟩
  | ppu =>
    dsimp only
    rw [m.askPpu_silent howner hgood, other.askPpu_silent howner hgood]
    exact ⟨rfl, h⟩
  | audio => exact ⟨congrArg (fun audio => (AudioUnit.read audio addr).1) haudio, h⟩
  | pad1 =>
    exact ⟨congrArg (·.read.1) hpad1,
      view_congr hram (congrArg (·.read.2) hpad1) hpad2 haudio hboard⟩
  | pad2 =>
    exact ⟨congrArg (·.read.1) hpad2,
      view_congr hram hpad1 (congrArg (·.read.2) hpad2) haudio hboard⟩
  | cartridge =>
    dsimp only
    rw [← m.cartridge.board.cpuRead_programSide, hboard, Board.cpuRead_programSide]
    exact ⟨rfl, h⟩
  | _ => exact ⟨rfl, h⟩

theorem Quiet.read (h : m.Quiet) {id : UInt8} {addr : UInt16} {v : UInt8}
    (hgood : ¬ (Access.read addr v).Observes id) : (Bus.read m addr).2.Quiet := by
  show (m.read addr).2.Quiet
  unfold Mainboard.read
  cases howner : Owner.ofRead addr with
  | ppu =>
    dsimp only
    rw [m.askPpu_silent howner hgood]
    exact h
  | _ => exact h.congr rfl rfl

theorem id_read (m : Mainboard AudioLatch) (addr : UInt16) :
    (Bus.read m addr).2.cartridge.board.id = m.cartridge.board.id := by
  show (m.read addr).2.cartridge.board.id = m.cartridge.board.id
  unfold read
  cases Owner.ofRead addr <;> rfl

/-! ### Writes -/

theorem programView_writeBoard (m : Mainboard AudioLatch) (addr : UInt16) (v : UInt8) :
    (m.writeBoard addr v).programView = { m.programView with
      board := (m.programView.board.cpuWrite addr v).programSide } := by
  have hboard := m.cartridge.board.programSide_cpuWrite addr v
  unfold writeBoard
  dsimp only
  split <;> exact congrArg (ProgramView.mk m.ram m.pad1 m.pad2 m.audio) hboard

theorem view_write (h : m.programView = other.programView) (addr : UInt16) (v : UInt8) :
    (Bus.write m addr v).programView = (Bus.write other addr v).programView := by
  obtain ⟨hram, hpad1, hpad2, haudio, hboard⟩ := ProgramView.mk.inj h
  show (m.write addr v).programView = (other.write addr v).programView
  unfold write
  cases Owner.ofWrite addr with
  | ram => exact view_congr (congrArg (·.set addr v) hram) hpad1 hpad2 haudio hboard
  | ppu =>
    refine view_congr hram hpad1 hpad2 haudio ?_
    show (m.ppu.writeRegister _ _ v).2.programSide = (other.ppu.writeRegister _ _ v).2.programSide
    rw [Ppu.programSide_writeRegister, Ppu.programSide_writeRegister, hboard]
  | audio => exact view_congr hram hpad1 hpad2 (congrArg (AudioUnit.write · addr v) haudio) hboard
  | pads =>
    exact view_congr hram (congrArg (·.write v) hpad1) (congrArg (·.write v) hpad2) haudio hboard
  | cartridge =>
    dsimp only
    rw [programView_writeBoard, programView_writeBoard, h]
  | _ => exact h

theorem id_write (m : Mainboard AudioLatch) (addr : UInt16) (v : UInt8) :
    (Bus.write m addr v).cartridge.board.id = m.cartridge.board.id := by
  show (m.write addr v).cartridge.board.id = m.cartridge.board.id
  unfold write
  cases Owner.ofWrite addr with
  | ppu => exact Board.id_of_programSide (m.ppu.programSide_writeRegister _ _ v)
  | cartridge =>
    unfold writeBoard
    dsimp only
    split <;> exact m.cartridge.board.id_cpuWrite addr v
  | _ => rfl

theorem ofWrite_eq_ppu {addr : UInt16} (h : Owner.ofWrite addr = .ppu) :
    0x2000 ≤ addr ∧ addr < 0x4000 := by
  unfold Owner.ofWrite at h
  repeat' split at h
  case isFalse.isTrue hlow hhigh => exact ⟨UInt16.not_lt.1 hlow, hhigh⟩
  all_goals cases h

theorem Quiet.write (h : m.Quiet) {addr : UInt16} {v : UInt8}
    (hgood : ¬ (Access.write addr v).Observes m.cartridge.board.id) :
    (Bus.write m addr v).Quiet := by
  show (m.write addr v).Quiet
  unfold Mainboard.write
  cases howner : Owner.ofWrite addr with
  | ppu =>
    obtain ⟨hlow, hhigh⟩ := ofWrite_eq_ppu howner
    have hcontrol : addr.toUInt8 &&& 7 = 0 → testBits v 0x80 = false := by
      intro heq
      cases hbit : testBits v 0x80 with
      | false => rfl
      | true => exact absurd (.inl ⟨hlow, hhigh, (lowBits_eq addr rfl).1 heq, hbit⟩) hgood
    exact ⟨(m.ppu.nmi_writeRegister _ _ _).trans h.latch,
      m.ppu.nmiEnabled_writeRegister _ h.masked hcontrol,
      m.ppu.disarmed_writeRegister h.disarmed _ v⟩
  | cartridge =>
    have hboard := h.disarmed.cpuWrite v fun hodd => hgood (.inr hodd)
    unfold writeBoard
    dsimp only
    split <;> exact ⟨h.latch, h.masked, hboard⟩
  | _ => exact h.congr rfl rfl

/-! ### Dots -/

theorem programView_tick (m : Mainboard AudioLatch) : m.tick.programView = m.programView := by
  have hboard : m.tick.cartridge.board.programSide = m.cartridge.board.programSide := by
    rw [board_tick]
    split
    · exact m.cartridge.board.programSide_clockScanline
    · rfl
  have hrest : m.tick.ram = m.ram ∧ m.tick.pad1 = m.pad1 ∧ m.tick.pad2 = m.pad2 ∧
      m.tick.audio = m.audio := by
    unfold tick
    dsimp only
    split <;> exact ⟨rfl, rfl, rfl, rfl⟩
  obtain ⟨hram, hpad1, hpad2, haudio⟩ := hrest
  exact view_congr hram hpad1 hpad2 haudio hboard

theorem Quiet.tick (h : m.Quiet) : m.tick.Quiet := by
  have hcontrol : m.tick.ppu.control = m.ppu.control := by
    rw [ppu_tick, Ppu.control_tick]
  constructor
  · rw [ppu_tick, Ppu.nmi_tick, h.latch, h.masked]
    repeat' split
    all_goals rfl
  · unfold Ppu.nmiEnabled
    rw [hcontrol]
    exact h.masked
  · rw [board_tick]
    split
    · exact h.disarmed.clockScanline
    · exact h.disarmed

theorem programView_ticks (m : Mainboard AudioLatch) (n : Nat) :
    (m.ticks n).programView = m.programView := by
  induction n generalizing m with
  | zero => rfl
  | succ n ih =>
    unfold ticks
    rw [ih, programView_tick]

theorem Quiet.ticks (h : m.Quiet) (n : Nat) : (m.ticks n).Quiet := by
  induction n generalizing m with
  | zero => exact h
  | succ n ih => exact ih h.tick

theorem Quiet.takeFrameReady (h : m.Quiet) : m.takeFrameReady.2.Quiet := by
  unfold Mainboard.takeFrameReady askPpu Ppu.takeFrameReady
  dsimp only
  split <;> exact ⟨h.latch, h.masked, h.disarmed⟩

/-! ### Two mainboards side by side -/

namespace SameView

variable {id : UInt8}

theorem simulation : Bus.PartialSimulation (SameView id) (Access.Observes id) where
  read := by
    intro m other addr h hgood
    obtain ⟨hanswer, hview⟩ := view_read h.view hgood
    exact ⟨hanswer, hview, (id_read m addr).trans h.id, h.quiet.read hgood, h.quiet'.read hgood⟩
  write := by
    intro m other addr v h hgood
    have hid := h.id
    have hid' := (id_of_view h.view).symm.trans hid
    refine ⟨view_write h.view addr v, (m.id_write addr v).trans hid, ?_, ?_⟩
    · exact h.quiet.write (hid ▸ hgood)
    · exact h.quiet'.write (hid' ▸ hgood)

theorem onJournal (h : SameView id m other) (f : Journal → Journal) :
    SameView id (m.onJournal f) other :=
  ⟨h.view, h.id, h.quiet.congr rfl rfl, h.quiet'⟩

theorem onJournal' (h : SameView id m other) (f : Journal → Journal) :
    SameView id m (other.onJournal f) :=
  ⟨h.view, h.id, h.quiet, h.quiet'.congr rfl rfl⟩

/-- Rows of dots of any two lengths. -/
theorem ticks (h : SameView id m other) (n k : Nat) : SameView id (m.ticks n) (other.ticks k) := by
  have hview : (m.ticks n).programView = m.programView := m.programView_ticks n
  refine ⟨?_, (id_of_view hview).trans h.id, h.quiet.ticks n, h.quiet'.ticks k⟩
  rw [hview, h.view, programView_ticks]

theorem stepAudio (h : SameView id m other) : SameView id m.stepAudio other.stepAudio := by
  obtain ⟨hram, hpad1, hpad2, haudio, hboard⟩ := ProgramView.mk.inj h.view
  have hview : m.stepAudio.programView = other.stepAudio.programView :=
    view_congr hram hpad1 hpad2 (congrArg AudioLatch.step haudio) hboard
  exact ⟨hview, h.id, h.quiet.congr rfl rfl, h.quiet'.congr rfl rfl⟩

theorem takeFrameReady (h : SameView id m other) :
    SameView id m.takeFrameReady.2 other.takeFrameReady.2 :=
  ⟨h.view, h.id, h.quiet.takeFrameReady, h.quiet'.takeFrameReady⟩

theorem setPad (h : SameView id m other) (socket : Socket) (change : Controller → Controller) :
    SameView id (m.setPad socket (change (m.pad socket)))
      (other.setPad socket (change (other.pad socket))) := by
  obtain ⟨hram, hpad1, hpad2, haudio, hboard⟩ := ProgramView.mk.inj h.view
  cases socket with
  | first =>
    exact ⟨view_congr hram (congrArg change hpad1) hpad2 haudio hboard, h.id,
      h.quiet.congr rfl rfl, h.quiet'.congr rfl rfl⟩
  | second =>
    exact ⟨view_congr hram hpad1 (congrArg change hpad2) haudio hboard, h.id,
      h.quiet.congr rfl rfl, h.quiet'.congr rfl rfl⟩

end SameView

end Mainboard

end Nes
