import Nes.Notice

/-!
# Hosts

What a run needs from outside: whole files by path, a place for notices, and a place for output.
A run is written over any host, so that it can be read as a function on a host that is a value.

famicore goes to the system for the same in `load`, `load_save`, `write_save` and `run_headless`.
-/

namespace Nes

/-- How the read of a file ends. -/
inductive ReadOutcome
  | contents (bytes : Array UInt8)
  | missing
  | failed (reason : String)
deriving DecidableEq

class Host (m : Type → Type) where
  readFile : String → m ReadOutcome
  /-- Writes a whole file; the reason is given where that fails. -/
  writeFile : String → Array UInt8 → m (Option String)
  report : Notice → m Unit
  print : String → m Unit

end Nes
