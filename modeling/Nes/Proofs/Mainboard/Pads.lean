import Nes.Proofs.Mainboard.Routing

/-!
# Two controllers on one bus

Writes to one address reach both controllers, and each is read at an address of its own.  Nothing
else on the bus or beside it reaches them, so that each controller is left, and answers, as it
would by itself if only what concerns it had happened.
-/

namespace Nes

/-- The address at which a controller is read. -/
def Socket.port : Socket → UInt16
  | first => 0x4016
  | second => 0x4017

namespace Mainboard

/-- What can happen to a mainboard: accesses, clocks, latches taken, and buttons. -/
inductive Event
  | read (addr : UInt16)
  | write (addr : UInt16) (v : UInt8)
  | dot
  | takeNmi
  | takeFrameReady
  | stepAudio
  | setButton (socket : Socket) (button : Button) (pressed : Bool)
  | setButtons (socket : Socket) (buttons : UInt8)

/-- What an event is to the controller in a socket. -/
def Event.padOp? (socket : Socket) : Event → Option Controller.Op
  | read addr => if addr = socket.port then some .read else none
  | write addr v => if addr = 0x4016 then some (.write v) else none
  | setButton other button pressed =>
    if other = socket then some (.setButton button pressed) else none
  | setButtons other buttons => if other = socket then some (.setButtons buttons) else none
  | dot | takeNmi | takeFrameReady | stepAudio => none

section Parts

variable {α : Type} (m : Mainboard α) (socket : Socket)

theorem pad_setPad (other : Socket) (pad : Controller) :
    (m.setPad other pad).pad socket = if other = socket then pad else m.pad socket := by
  cases other <;> cases socket <;> rfl

theorem pad_tick : m.tick.pad socket = m.pad socket := by
  unfold tick
  dsimp only
  split <;> cases socket <;> rfl

end Parts

variable {α : Type} [AudioUnit α]

def happen (m : Mainboard α) : Event → Mainboard α
  | .read addr => (Bus.read m addr).2
  | .write addr v => Bus.write m addr v
  | .dot => m.tick
  | .takeNmi => m.takeNmi.2
  | .takeFrameReady => m.takeFrameReady.2
  | .stepAudio => m.stepAudio
  | .setButton socket button pressed => m.setPad socket ((m.pad socket).setButton button pressed)
  | .setButtons socket buttons => m.setPad socket ((m.pad socket).setButtons buttons)

def history (m : Mainboard α) (events : List Event) : Mainboard α := events.foldl happen m

/-- The byte that an event reads from a controller. -/
def padAnswer? (m : Mainboard α) (socket : Socket) : Event → Option UInt8
  | .read addr => if addr = socket.port then some (Bus.read m addr).1 else none
  | _ => none

/-- The bytes read from a controller, in order. -/
def padAnswers (m : Mainboard α) (socket : Socket) : List Event → List UInt8
  | [] => []
  | event :: events =>
    (m.padAnswer? socket event).toList ++ (m.happen event).padAnswers socket events

variable (m : Mainboard α) (socket : Socket)

/-! ### One event -/

theorem read_port : Bus.read m socket.port = m.askPad socket Controller.read := by
  cases socket <;> rfl

theorem pad_read (addr : UInt16) : (Bus.read m addr).2.pad socket =
    if addr = socket.port then (m.pad socket).read.2 else m.pad socket := by
  by_cases hport : ∃ other : Socket, addr = other.port
  · obtain ⟨other, rfl⟩ := hport
    rw [read_port]
    cases other <;> cases socket <;> rfl
  · have howner : Owner.ofRead addr ≠ .pad1 ∧ Owner.ofRead addr ≠ .pad2 := by
      obtain ⟨-, hfirst, hsecond⟩ := ofRead_iff addr
      exact ⟨fun h => hport ⟨.first, hfirst.1 h⟩, fun h => hport ⟨.second, hsecond.1 h⟩⟩
    rw [if_neg fun h => hport ⟨socket, h⟩]
    show (m.read addr).2.pad socket = _
    unfold read
    cases h : Owner.ofRead addr with
    | pad1 => exact absurd h howner.1
    | pad2 => exact absurd h howner.2
    | _ => cases socket <;> rfl

theorem pad_write (addr : UInt16) (v : UInt8) : (Bus.write m addr v).pad socket =
    if addr = 0x4016 then (m.pad socket).write v else m.pad socket := by
  have howner := (ofWrite_iff addr).2.2.1
  show (m.write addr v).pad socket = _
  unfold write
  cases h : Owner.ofWrite addr with
  | pads =>
    rw [if_pos (howner.1 h)]
    cases socket <;> rfl
  | cartridge =>
    have hother : addr ≠ 0x4016 := fun heq => by simp [howner.2 heq] at h
    refine Eq.trans ?_ (if_neg hother).symm
    simp only [writeBoard]
    split <;> cases socket <;> rfl
  | _ =>
    have hother : addr ≠ 0x4016 := fun heq => by simp [howner.2 heq] at h
    refine Eq.trans ?_ (if_neg hother).symm
    cases socket <;> rfl

/-- An event does to a controller what it is to it, and nothing else. -/
theorem pad_happen (event : Event) : (m.happen event).pad socket =
    (event.padOp? socket).elim (m.pad socket) (m.pad socket).apply := by
  cases event with
  | read addr =>
    rw [happen, pad_read, Event.padOp?]
    split <;> rfl
  | write addr v =>
    rw [happen, pad_write, Event.padOp?]
    split <;> rfl
  | dot => exact m.pad_tick socket
  | setButton other button pressed =>
    rw [happen, pad_setPad, Event.padOp?]
    split
    case isTrue h => rw [h]; rfl
    case isFalse => rfl
  | setButtons other buttons =>
    rw [happen, pad_setPad, Event.padOp?]
    split
    case isTrue h => rw [h]; rfl
    case isFalse => rfl
  | _ => cases socket <;> rfl

theorem padAnswer_eq (event : Event) : m.padAnswer? socket event =
    (event.padOp? socket).bind (m.pad socket).answer? := by
  cases event with
  | read addr =>
    rw [padAnswer?, Event.padOp?]
    split
    case isTrue h =>
      rw [h, read_port]
      rfl
    case isFalse => rfl
  | write addr v =>
    rw [Event.padOp?]
    split <;> rfl
  | setButton other button pressed =>
    rw [Event.padOp?]
    split <;> rfl
  | setButtons other buttons =>
    rw [Event.padOp?]
    split <;> rfl
  | _ => rfl

/-! ### Histories -/

theorem pad_history (events : List Event) : (m.history events).pad socket =
    (m.pad socket).run (events.filterMap (Event.padOp? socket)) := by
  induction events generalizing m with
  | nil => rfl
  | cons event events ih =>
    show ((m.happen event).history events).pad socket = _
    rw [ih, pad_happen]
    cases h : event.padOp? socket with
    | none => rw [List.filterMap_cons_none h]; rfl
    | some op => rw [List.filterMap_cons_some h]; rfl

theorem padAnswers_eq (events : List Event) : m.padAnswers socket events =
    (m.pad socket).answers (events.filterMap (Event.padOp? socket)) := by
  induction events generalizing m with
  | nil => rfl
  | cons event events ih =>
    rw [padAnswers, ih, padAnswer_eq, pad_happen]
    cases h : event.padOp? socket with
    | none => rw [List.filterMap_cons_none h]; rfl
    | some op => rw [List.filterMap_cons_some h]; rfl

theorem read_port_powerOn (cartridge : Cartridge) (audio : α) (journal : Journal)
    (events : List Event) : (Bus.read ((powerOn cartridge audio journal).history events)
        socket.port).1 =
      (Controller.run {} (events.filterMap (Event.padOp? socket))).read.1 := by
  have hfresh : (powerOn cartridge audio journal).pad socket = {} := by cases socket <;> rfl
  rw [read_port, ← hfresh, ← pad_history]
  rfl

/-- A controller answers by its own history: with its first button while the strobe is high, after
a fall with the buttons as they were there, in order and then with ones, and with ones before any
rise.  On the bus its history is made of the writes that drive both controllers, the reads at its
own address and the changes of its own buttons, and of nothing else that happens there. -/
theorem pads_answer_by_history :
    (∀ (ops : List Controller.Op) (b : UInt8),
      (Controller.run {} ops).read.1 = b ↔ Controller.Answers ops b) ∧
    (∀ (ops : List Controller.Op) (button : Button),
      (Controller.run {} ops).buttons.toNat.testBit button.number = Controller.held button ops) ∧
    (∀ (m : Mainboard α) (socket : Socket) (events : List Event),
      let own := events.filterMap (Event.padOp? socket)
      (m.history events).pad socket = (m.pad socket).run own ∧
        m.padAnswers socket events = (m.pad socket).answers own) ∧
    (∀ (cartridge : Cartridge) (audio : α) (journal : Journal) (socket : Socket)
      (events : List Event) (b : UInt8),
      (Bus.read ((powerOn cartridge audio journal).history events) socket.port).1 = b ↔
        Controller.Answers (events.filterMap (Event.padOp? socket)) b) := by
  refine ⟨Controller.read_eq_iff, Controller.testBit_buttons_run, fun m socket events => ?_, ?_⟩
  · exact ⟨m.pad_history socket events, m.padAnswers_eq socket events⟩
  · intro cartridge audio journal socket events b
    rw [read_port_powerOn]
    exact Controller.read_eq_iff _ b

end Mainboard

end Nes
