import Nes.Audio
import Nes.Bus.Journaled
import Nes.Cartridge.Report
import Nes.Controller
import Nes.Ppu

/-!
# The mainboard

The console's bus: its memory, the picture unit, the audio unit, two controllers and the
cartridge.  Every address has one owner for reads and one for writes; what nobody owns reads as
zero and drops writes.

This is famicore's `NesBus`, with its `read` and `write`; `tick`, `takeNmi`, `takeFrameReady`,
`irqPending` and `stepAudio` are its `step_ppu`, `take_nmi`, `take_frame_ready`, `irq_pending` and
`step_audio`, and `pad` and `setPad` what `controller_mut` of its `Console` reaches.
-/

namespace Nes

/-- The sockets for controllers. -/
inductive Socket
  | first
  | second
deriving DecidableEq, Repr

/-- Sockets are numbered from zero. -/
def Socket.ofNat? : Nat → Option Socket
  | 0 => some first
  | 1 => some second
  | _ => none

/-- A console without its processor.  The audio unit is a parameter. -/
structure Mainboard (α : Type) where
  ram : ConsoleRam
  cartridge : Cartridge
  ppu : Ppu
  pad1 : Controller
  pad2 : Controller
  audio : α
  journal : Journal

inductive Owner
  | ram
  | ppu
  | audio
  | pad1
  | pad2
  | pads
  | cartridge
  | nobody
deriving DecidableEq, Repr

@[inline] def Owner.ofRead (addr : UInt16) : Owner :=
  if addr < 0x2000 then ram
  else if addr < 0x4000 then ppu
  else if addr < 0x4016 then audio
  else if addr = 0x4016 then pad1
  else if addr = 0x4017 then pad2
  else if addr < 0x6000 then nobody
  else cartridge

/-- The device that takes a write: one address drives both controllers, the one after it is the
audio unit's. -/
@[inline] def Owner.ofWrite (addr : UInt16) : Owner :=
  if addr < 0x2000 then ram
  else if addr < 0x4000 then ppu
  else if addr = 0x4016 then pads
  else if addr < 0x4018 then audio
  else if addr < 0x6000 then nobody
  else cartridge

namespace Mainboard

variable {α : Type}

def powerOn (cartridge : Cartridge) (audio : α) (journal : Journal) : Mainboard α where
  ram := .filled 0
  cartridge := cartridge
  ppu := .powerOn
  pad1 := {}
  pad2 := {}
  audio := audio
  journal := journal

/-! ### Parts

Each of these works on one part and leaves the others as they are. -/

@[inline] def onRam (m : Mainboard α) (f : ConsoleRam → ConsoleRam) : Mainboard α :=
  match m with
  | ⟨ram, cartridge, ppu, pad1, pad2, audio, journal⟩ =>
    ⟨f ram, cartridge, ppu, pad1, pad2, audio, journal⟩

@[inline] def onPads (m : Mainboard α) (f : Controller → Controller) : Mainboard α :=
  match m with
  | ⟨ram, cartridge, ppu, pad1, pad2, audio, journal⟩ =>
    ⟨ram, cartridge, ppu, f pad1, f pad2, audio, journal⟩

@[inline] def onAudio (m : Mainboard α) (f : ConsoleRam → α → α) : Mainboard α :=
  match m with
  | ⟨ram, cartridge, ppu, pad1, pad2, audio, journal⟩ =>
    ⟨ram, cartridge, ppu, pad1, pad2, f ram audio, journal⟩

/-- The picture unit and the board that it draws from. -/
@[inline] def onPicture (m : Mainboard α) (f : Ppu → Board → Ppu × Board) : Mainboard α :=
  match m with
  | ⟨ram, ⟨header, trainer, board⟩, ppu, pad1, pad2, audio, journal⟩ =>
    match f ppu board with
    | (ppu, board) => ⟨ram, ⟨header, trainer, board⟩, ppu, pad1, pad2, audio, journal⟩

@[inline] def onJournal (m : Mainboard α) (f : Journal → Journal) : Mainboard α :=
  match m with
  | ⟨ram, cartridge, ppu, pad1, pad2, audio, journal⟩ =>
    ⟨ram, cartridge, ppu, pad1, pad2, audio, f journal⟩

def takeNotices (m : Mainboard α) : Array Notice × Mainboard α :=
  match m with
  | ⟨ram, cartridge, ppu, pad1, pad2, audio, journal⟩ =>
    match journal.take with
    | (notices, journal) => (notices, ⟨ram, cartridge, ppu, pad1, pad2, audio, journal⟩)

/-- An answer of the picture unit, which sees the board. -/
@[inline] def askPpu {γ : Type} (m : Mainboard α) (f : Ppu → Board → γ × Ppu) : γ × Mainboard α :=
  match m with
  | ⟨ram, cartridge, ppu, pad1, pad2, audio, journal⟩ =>
    match f ppu cartridge.board with
    | (answer, ppu) => (answer, ⟨ram, cartridge, ppu, pad1, pad2, audio, journal⟩)

@[inline] def askAudio {γ : Type} (m : Mainboard α) (f : α → γ × α) : γ × Mainboard α :=
  match m with
  | ⟨ram, cartridge, ppu, pad1, pad2, audio, journal⟩ =>
    match f audio with
    | (answer, audio) => (answer, ⟨ram, cartridge, ppu, pad1, pad2, audio, journal⟩)

def pad (m : Mainboard α) : Socket → Controller
  | .first => m.pad1
  | .second => m.pad2

def setPad (m : Mainboard α) (socket : Socket) (pad : Controller) : Mainboard α :=
  match socket with
  | .first => { m with pad1 := pad }
  | .second => { m with pad2 := pad }

def askPad {γ : Type} (m : Mainboard α) (socket : Socket) (f : Controller → γ × Controller) :
    γ × Mainboard α :=
  match f (m.pad socket) with
  | (answer, pad) => (answer, m.setPad socket pad)

instance : Journaled (Mainboard α) where
  journal m := m.journal
  onJournal := onJournal

/-! ### Accesses -/

variable [AudioUnit α]

@[inline] def read (m : Mainboard α) (addr : UInt16) : UInt8 × Mainboard α :=
  match Owner.ofRead addr with
  | .ram => (m.ram.get addr, m)
  | .ppu => m.askPpu fun ppu board => ppu.readRegister board addr.toUInt8
  | .audio => m.askAudio (AudioUnit.read · addr)
  | .pad1 => m.askPad .first Controller.read
  | .pad2 => m.askPad .second Controller.read
  | .cartridge => (m.cartridge.board.cpuRead addr, m)
  | .pads | .nobody => (0, m)

/-- A write to the board, noted where it moved a bank. -/
@[inline] def writeBoard (m : Mainboard α) (addr : UInt16) (v : UInt8) : Mainboard α :=
  let m := m.onPicture fun ppu board => (ppu, board.cpuWrite addr v)
  if m.journal.admits .debug then
    let notices := (m.cartridge.board.writeNotice? addr).toList
    m.onJournal (·.addAll notices)
  else m

@[inline] def write (m : Mainboard α) (addr : UInt16) (v : UInt8) : Mainboard α :=
  match Owner.ofWrite addr with
  | .ram => m.onRam (·.set addr v)
  | .ppu => m.onPicture fun ppu board => ppu.writeRegister board addr.toUInt8 v
  | .audio => m.onAudio fun _ audio => AudioUnit.write audio addr v
  | .pads => m.onPads (·.write v)
  | .cartridge => m.writeBoard addr v
  | .pad1 | .pad2 | .nobody => m

instance : Bus (Mainboard α) where
  read := read
  write := write

/-! ### Clocks and lines -/

/-- One dot of the picture unit; a finished frame is noted. -/
@[inline] def tick (m : Mainboard α) : Mainboard α :=
  let m := m.onPicture Ppu.step
  if m.ppu.beam.atFrame then
    let frames := m.ppu.beam.frames
    m.onJournal (·.add (.frameComplete frames))
  else m

@[specialize] def ticks (m : Mainboard α) : Nat → Mainboard α
  | 0 => m
  | n + 1 => ticks m.tick n

@[inline] def takeNmi (m : Mainboard α) : Bool × Mainboard α := m.askPpu fun ppu _ => ppu.takeNmi

@[inline] def takeFrameReady (m : Mainboard α) : Bool × Mainboard α :=
  m.askPpu fun ppu _ => ppu.takeFrameReady

@[inline] def irqPending (m : Mainboard α) : Bool := m.cartridge.board.irqPending

/-- The audio unit's step, with the console's memory in view. -/
@[inline] def stepAudio (m : Mainboard α) : Mainboard α :=
  m.onAudio fun ram audio => AudioUnit.step audio ram

end Mainboard

end Nes
