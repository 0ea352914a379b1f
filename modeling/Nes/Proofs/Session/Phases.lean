import Nes.Proofs.Cartridge.Battery
import Nes.Proofs.Console.Board
import Nes.Proofs.Host.Effects
import Nes.Proofs.Host.Siblings
import Nes.Session

/-!
# The phases of a session

Each part of a session on a disk: its value, and the disk that it leaves.  Loading, booting and
playing leave the disk as it is, however the play ends; what is written is the memory of the last
console.
-/

namespace Nes.Session

open CommandLine (Options)

variable {d d' : Disk}

/-! ### Reports -/

/-- What a session loads: the file at the path, if it can be read and the image is accepted. -/
def loaded (d : Disk) (rom : String) : Except SessionError Cartridge :=
  match d.read rom with
  | .ok data => (Cartridge.ofBytes data).mapError .load
  | .error _ => .error (.load (.unreadable rom))

/-- The contents of the save, empty where there is none. -/
def saved (d : Disk) (rom : String) : Array UInt8 :=
  match d.read (savePath rom) with
  | .ok bytes => bytes
  | .error _ => #[]

/-- A number of frames in turn, up to the first unknown opcode; after each the notices are gone. -/
inductive Plays : Nat → Console → Except UnknownOpcode Unit → Console → Prop
  | done (c : Console) : Plays 0 c (.ok ()) c
  | fault {n : Nat} {c next : Console} {e : UnknownOpcode} (h : c.runFrame = (.error e, next)) :
    Plays (n + 1) c (.error e) next.takeNotices.2
  | frame {n : Nat} {c next last : Console} {outcome : Except UnknownOpcode Unit}
    (h : c.runFrame = (.ok (), next)) (rest : Plays n next.takeNotices.2 outcome last) :
    Plays (n + 1) c outcome last

theorem Plays.id {n : Nat} {c last : Console} {outcome : Except UnknownOpcode Unit}
    (h : Plays n c outcome last) : last.board.id = c.board.id := by
  induction h with
  | done c => rfl
  | @fault n c next e h =>
    have hnext := c.id_runFrame
    rw [h] at hnext
    exact hnext
  | @frame n c next last outcome h rest ih =>
    have hnext := c.id_runFrame
    rw [h] at hnext
    exact ih.trans hnext

end Nes.Session
