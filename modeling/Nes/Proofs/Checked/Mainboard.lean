import Nes.Proofs.Checked.Picture
import Nes.Proofs.Cpu.Simulation
import Nes.Proofs.Mainboard.Routing

/-!
# The mainboard, checked

Every access to the mainboard with the index of its memory, the port of its controller and all
that its devices do checked, and every dot.  `Guarded` is the bus of a processor whose accesses
are checked: once an access has gone wrong it answers zero and stays wrong.  A bus that is sound
never gets there, and answers as the mainboard does.
-/

namespace Nes

open Checked

/-! ### Devices -/

namespace Controller

def readChecked (c : Controller) : Checked (UInt8 × Controller) :=
  if c.strobe then .ok (c.buttons &&& 1, c)
  else if c.remaining = 0 then .ok (1, c)
  else do
    let remaining ← diff c.remaining 1
    return (c.shift &&& 1, { c with shift := c.shift >>> 1, remaining })

theorem readChecked_ok (c : Controller) : c.readChecked = .ok c.read := by
  unfold readChecked read
  split
  · rfl
  split
  · rfl
  case isFalse h =>
    rw [diff_ok (Nat.one_le_iff_ne_zero.2 h)]
    rfl

end Controller

theorem Button.mask_eq (button : Button) : shl 1 button.number = .ok button.mask := by
  cases button <;> rfl

def Controller.setButtonChecked (c : Controller) (button : Button) (pressed : Bool) :
    Checked Controller := do
  let bit ← shl 1 button.number
  return c.setButtons (if pressed then c.buttons ||| bit else c.buttons &&& ~~~bit)

theorem Controller.setButtonChecked_ok (c : Controller) (button : Button) (pressed : Bool) :
    c.setButtonChecked button pressed = .ok (c.setButton button pressed) := by
  unfold Controller.setButtonChecked
  rw [button.mask_eq]
  rfl

def AudioLatch.readChecked (l : AudioLatch) (addr : UInt16) : Checked UInt8 :=
  if addr = 0x4015 then do
    let status ← entry l.registers 0x15
    return status &&& 0x1F
  else .ok 0

theorem AudioLatch.readChecked_ok (l : AudioLatch) (addr : UInt16) :
    l.readChecked addr = .ok (l.read addr) := by
  unfold AudioLatch.readChecked AudioLatch.read
  split
  · rw [entry_ok l.registers (by decide)]
    rfl
  · rfl

/-- The sockets as an array, which a port is an index of. -/
def Socket.ofPort (port : Nat) : Checked Socket := entry #v[Socket.first, Socket.second] port

namespace Mainboard

/-! ### Accesses -/

def readPadChecked (m : Mainboard AudioLatch) (addr : UInt16) :
    Checked (UInt8 × Mainboard AudioLatch) := do
  let port ← sub addr 0x4016
  let socket ← Socket.ofPort port.toNat
  let (v, pad) ← (m.pad socket).readChecked
  return (v, m.setPad socket pad)

def readChecked (m : Mainboard AudioLatch) (addr : UInt16) :
    Checked (UInt8 × Mainboard AudioLatch) :=
  match Owner.ofRead addr with
  | .ram => do
    let i ← rem addr.toNat 0x800
    let v ← m.ram.getChecked i
    return (v, m)
  | .ppu => do
    let number ← rem addr.toNat 8
    let (v, ppu) ← m.ppu.readRegisterChecked m.cartridge.board (UInt8.ofNat number)
    return (v, { m with ppu })
  | .audio => do
    let v ← m.audio.readChecked addr
    return (v, m)
  | .pad1 | .pad2 => m.readPadChecked addr
  | .cartridge => do
    let v ← m.cartridge.board.cpuReadChecked addr
    return (v, m)
  | .pads | .nobody => .ok (0, m)

/-- The banks that a write to the board moved, noted. -/
def noteBanks (m : Mainboard AudioLatch) (addr : UInt16) : Mainboard AudioLatch :=
  if m.journal.admits .debug then
    m.onJournal (·.addAll (m.cartridge.board.writeNotice? addr).toList)
  else m

def writeChecked (m : Mainboard AudioLatch) (addr : UInt16) (v : UInt8) :
    Checked (Mainboard AudioLatch) :=
  match Owner.ofWrite addr with
  | .ram => do
    let i ← rem addr.toNat 0x800
    let ram ← m.ram.setChecked i v
    return { m with ram }
  | .ppu => do
    let number ← rem addr.toNat 8
    let (ppu, board) ←
      m.ppu.writeRegisterChecked m.cartridge.board (UInt8.ofNat number) v
    return { m with ppu, cartridge := { m.cartridge with board } }
  | .audio => .ok { m with audio := m.audio.write addr v }
  | .pads => .ok { m with pad1 := m.pad1.write v, pad2 := m.pad2.write v }
  | .cartridge => do
    let board ← m.cartridge.board.cpuWriteChecked addr v
    return noteBanks { m with cartridge := { m.cartridge with board } } addr
  | .pad1 | .pad2 | .nobody => .ok m

/-- A finished frame, noted. -/
def noteFrame (m : Mainboard AudioLatch) : Mainboard AudioLatch :=
  if m.ppu.beam.atFrame then m.onJournal (·.add (.frameComplete m.ppu.beam.frames)) else m

def tickChecked (m : Mainboard AudioLatch) : Checked (Mainboard AudioLatch) := do
  let (ppu, board) ← m.ppu.stepChecked m.cartridge.board
  return noteFrame { m with ppu, cartridge := { m.cartridge with board } }

def ticksChecked (m : Mainboard AudioLatch) (n : Nat) : Checked (Mainboard AudioLatch) :=
  (List.range n).foldlM (fun m _ => m.tickChecked) m

/-! ### Nothing goes wrong -/

/-- The picture unit and the board are in order. -/
structure Sound (m : Mainboard AudioLatch) : Prop where
  ppu : m.ppu.Sound
  board : m.cartridge.board.Sound

variable {m : Mainboard AudioLatch}

theorem registerBits_eq (addr : UInt16) :
    UInt8.ofNat (addr.toNat % 8) &&& 7 = addr.toUInt8 &&& 7 := by
  have hlow (b : UInt8) : (b &&& 7).toNat = b.toNat % 8 := by
    rw [UInt8.toNat_and]
    exact Nat.and_two_pow_sub_one_eq_mod _ 3
  apply UInt8.toNat_inj.1
  rw [hlow, hlow, UInt8.toNat_ofNat', UInt16.toNat_toUInt8]
  omega

theorem readPadChecked_ok {addr : UInt16} {socket : Socket}
    (haddr : addr = 0x4016 ∧ socket = .first ∨ addr = 0x4017 ∧ socket = .second) :
    m.readPadChecked addr = .ok (m.askPad socket Controller.read) := by
  have hport : ∃ port, sub addr 0x4016 = .ok port ∧ Socket.ofPort port.toNat = .ok socket := by
    rcases haddr with ⟨rfl, rfl⟩ | ⟨rfl, rfl⟩
    · exact ⟨0, rfl, rfl⟩
    · exact ⟨1, rfl, rfl⟩
  obtain ⟨port, hsub, hsocket⟩ := hport
  unfold readPadChecked
  rw [hsub, ok_bind, hsocket, ok_bind, Controller.readChecked_ok]
  rfl

theorem readChecked_ok (addr : UInt16) : m.readChecked addr = .ok (m.read addr) := by
  unfold readChecked read
  cases howner : Owner.ofRead addr with
  | ram =>
    dsimp only
    rw [rem_ok (by decide), ok_bind, Memory.getChecked_ok _ rfl]
    rfl
  | ppu =>
    have hnumber : m.ppu.readRegister m.cartridge.board (UInt8.ofNat (addr.toNat % 8)) =
        m.ppu.readRegister m.cartridge.board addr.toUInt8 := by
      unfold Ppu.readRegister
      rw [registerBits_eq]
    dsimp only
    rw [rem_ok (by decide), ok_bind, Ppu.readRegisterChecked_ok, hnumber]
    rfl
  | audio =>
    dsimp only
    rw [AudioLatch.readChecked_ok]
    rfl
  | pad1 => exact readPadChecked_ok (.inl ⟨(ofRead_iff addr).2.1.1 howner, rfl⟩)
  | pad2 => exact readPadChecked_ok (.inr ⟨(ofRead_iff addr).2.2.1 howner, rfl⟩)
  | cartridge =>
    dsimp only
    rw [Board.cpuReadChecked_ok]
    rfl
  | pads => rfl
  | nobody => rfl

theorem writeChecked_ok (h : m.Sound) (addr : UInt16) (v : UInt8) :
    m.writeChecked addr v = .ok (m.write addr v) := by
  unfold writeChecked write
  cases Owner.ofWrite addr with
  | ram =>
    dsimp only
    rw [rem_ok (by decide), ok_bind, Memory.setChecked_ok _ _ rfl]
    rfl
  | ppu =>
    have hnumber : m.ppu.writeRegister m.cartridge.board (UInt8.ofNat (addr.toNat % 8)) v =
        m.ppu.writeRegister m.cartridge.board addr.toUInt8 v := by
      unfold Ppu.writeRegister
      rw [registerBits_eq]
    dsimp only
    rw [rem_ok (by decide), ok_bind, Ppu.writeRegisterChecked_ok h.board, hnumber]
    rfl
  | cartridge =>
    dsimp only
    rw [Board.cpuWriteChecked_ok]
    rfl
  | _ => rfl

theorem tickChecked_ok (h : m.Sound) : m.tickChecked = .ok m.tick := by
  unfold tickChecked
  rw [Ppu.stepChecked_ok h.ppu]
  rfl

/-! ### What is kept -/

theorem Sound.read (h : m.Sound) (addr : UInt16) : (Bus.read m addr).2.Sound := by
  show (m.read addr).2.Sound
  unfold Mainboard.read
  cases Owner.ofRead addr with
  | ppu => exact ⟨h.ppu.readRegister addr.toUInt8, h.board⟩
  | _ => exact ⟨h.ppu, h.board⟩

theorem Sound.onJournal (h : m.Sound) (f : Journal → Journal) : (m.onJournal f).Sound :=
  ⟨h.ppu, h.board⟩

theorem Sound.write (h : m.Sound) (addr : UInt16) (v : UInt8) : (Bus.write m addr v).Sound := by
  show (m.write addr v).Sound
  unfold Mainboard.write
  cases Owner.ofWrite addr with
  | ppu =>
    exact ⟨h.ppu.writeRegister addr.toUInt8 v, h.board.writeRegister m.ppu addr.toUInt8 v⟩
  | cartridge =>
    have hwritten : (m.onPicture fun ppu board => (ppu, board.cpuWrite addr v)).Sound :=
      ⟨h.ppu, h.board.cpuWrite addr v⟩
    simp only [writeBoard]
    split
    · exact hwritten.onJournal _
    · exact hwritten
  | _ => exact ⟨h.ppu, h.board⟩

theorem Sound.tick (h : m.Sound) : m.tick.Sound := by
  have hboard : m.tick.cartridge.board.Sound := by
    rw [board_tick]
    split
    · exact h.board.clockScanline
    · exact h.board
  refine ⟨?_, hboard⟩
  rw [ppu_tick]
  exact h.ppu.tick

theorem Sound.ticks (h : m.Sound) (n : Nat) : (m.ticks n).Sound := by
  induction n with
  | zero => exact h
  | succ n ih =>
    rw [ticks_succ]
    exact ih.tick

theorem ticksChecked_ok (h : m.Sound) (n : Nat) : m.ticksChecked n = .ok (m.ticks n) := by
  obtain ⟨last, hrun, rfl⟩ := foldlM_range (P := fun k last => last = m.ticks k)
    (f := fun m _ => m.tickChecked) (n := n) (s := m) (fun k s _ hs => ⟨m.ticks (k + 1), by
      rw [hs, tickChecked_ok (h.ticks k), ticks_succ], rfl⟩) rfl
  exact hrun

theorem Sound.takeNmi (h : m.Sound) : m.takeNmi.2.Sound := by
  refine ⟨?_, h.board⟩
  show m.ppu.takeNmi.2.Sound
  unfold Ppu.takeNmi
  split <;> exact ⟨h.ppu.beam, h.ppu.frame⟩

theorem Sound.takeFrameReady (h : m.Sound) : m.takeFrameReady.2.Sound := by
  refine ⟨?_, h.board⟩
  show m.ppu.takeFrameReady.2.Sound
  unfold Ppu.takeFrameReady
  split <;> exact ⟨h.ppu.beam, h.ppu.frame⟩

theorem Sound.stepAudio (h : m.Sound) : m.stepAudio.Sound := ⟨h.ppu, h.board⟩

theorem Sound.setPad (h : m.Sound) (socket : Socket) (pad : Controller) :
    (m.setPad socket pad).Sound := by
  cases socket <;> exact ⟨h.ppu, h.board⟩

end Mainboard

/-! ### The bus of a checked processor -/

structure Guarded where
  state : Checked (Mainboard AudioLatch)

namespace Guarded

def read (g : Guarded) (addr : UInt16) : UInt8 × Guarded :=
  match g.state >>= (·.readChecked addr) with
  | .ok (v, m) => (v, ⟨.ok m⟩)
  | .error fault => (0, ⟨.error fault⟩)

instance : Bus Guarded where
  read := read
  write g addr v := ⟨g.state >>= (·.writeChecked addr v)⟩

def journal (g : Guarded) : Journal :=
  match g.state with
  | .ok m => m.journal
  | .error _ => ⟨none, #[]⟩

instance : Journaled Guarded where
  journal := journal
  onJournal g f := ⟨(·.onJournal f) <$> g.state⟩

/-- The bus has met no fault, and behind it is a sound mainboard. -/
structure Holds (g : Guarded) (m : Mainboard AudioLatch) : Prop where
  state : g.state = .ok m
  sound : m.Sound

theorem simulation : Bus.Simulation Holds where
  read {g m} addr h := by
    obtain ⟨state⟩ := g
    obtain ⟨rfl, hsound⟩ := h
    have hread : Guarded.read ⟨.ok m⟩ addr = ((m.read addr).1, ⟨.ok (m.read addr).2⟩) := by
      unfold Guarded.read
      dsimp only
      rw [ok_bind, Mainboard.readChecked_ok]
    exact ⟨congrArg Prod.fst hread, congrArg (·.2.state) hread, hsound.read addr⟩
  write {g m} addr v h := by
    obtain ⟨state⟩ := g
    obtain ⟨rfl, hsound⟩ := h
    exact ⟨Mainboard.writeChecked_ok hsound addr v, hsound.write addr v⟩

theorem notesAlike : Cpu.NotesAlike Holds where
  journal {g m} h := by
    obtain ⟨state⟩ := g
    obtain ⟨rfl, -⟩ := h
    rfl
  onJournal {g m} f h := by
    obtain ⟨state⟩ := g
    obtain ⟨rfl, hsound⟩ := h
    exact ⟨rfl, hsound.onJournal f⟩

end Guarded

end Nes
