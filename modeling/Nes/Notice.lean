import Nes.Board.Mmc3
import Nes.Cartridge.Image
import Nes.Cpu.Trace

/-!
# Notices

What the program tells about its own doings, each with its level and the part that it comes
from.

There is one for each record that famicore logs; `line` is the `log` of its `StderrLogger` and
`colour` the choice that `tag` makes.
-/

namespace Nes

/-- Levels of notices, the gravest first. -/
inductive Level
  | error
  | warn
  | info
  | debug
  | trace
deriving DecidableEq, Repr

namespace Level

def rank : Level → Nat
  | error => 1
  | warn => 2
  | info => 3
  | debug => 4
  | trace => 5

def name : Level → String
  | error => "ERROR"
  | warn => "WARN"
  | info => "INFO"
  | debug => "DEBUG"
  | trace => "TRACE"

def colour : Level → String
  | error => "31"
  | warn => "33"
  | info => "32"
  | debug => "34"
  | trace => "35"

end Level

inductive Notice
  | missingMagic
  | memorySizes (header : Header)
  | boardSettings (header : Header)
  | trainerDropped (mapper : UInt8)
  | resetVector (pc : UInt16)
  | prgBank (bank : Nat)
  | bankWindows (windows : Mmc3.Windows)
  | frameComplete (count : Nat)
  | instruction (fetched : Fetched) (snapshot : Trace.Snapshot)
  | saveLoaded (size : Nat) (path : String)
  | saveUnreadable (path reason : String)
  | saveWritten (size : Nat) (path : String)
  | saveUnwritable (path reason : String)
  | failure (message : String)

namespace Notice

def level : Notice → Level
  | failure _ => .error
  | missingMagic | trainerDropped _ | saveUnreadable _ _ | saveUnwritable _ _ => .warn
  | memorySizes _ | boardSettings _ | resetVector _ | saveLoaded _ _ | saveWritten _ _ => .info
  | prgBank _ | bankWindows _ | frameComplete _ => .debug
  | instruction _ _ => .trace

def source : Notice → String
  | missingMagic | memorySizes _ | boardSettings _ | trainerDropped _ =>
    "famicore::cartridge::cartridge"
  | resetVector _ | instruction _ _ => "famicore::cpu::cpu"
  | prgBank _ => "famicore::cartridge::mapper::mapper2"
  | bankWindows _ => "famicore::cartridge::mapper::mapper4"
  | frameComplete _ => "famicore::ppu::ppu"
  | saveLoaded _ _ | saveUnreadable _ _ | saveWritten _ _ | saveUnwritable _ _ | failure _ =>
    "famicore"

/-- Numbers in brackets, with commas between. -/
def numberList (ns : List Nat) : String :=
  "[" ++ ", ".intercalate (ns.map toString) ++ "]"

def message : Notice → String
  | missingMagic => "missing iNES magic, loading anyway"
  | memorySizes h =>
    "PRG ROM: " ++ toString (h.prgUnits.toNat * 16) ++ " KiB (" ++ toString h.prgUnits.toNat ++
      " banks), CHR: " ++
      (if h.chrIsRam then "8 KiB RAM" else toString (h.chrUnits.toNat * 8) ++ " KiB")
  | boardSettings h =>
    "mapper " ++ toString h.mapper.toNat ++ ", " ++ h.mirroring.name ++ " mirroring, battery: " ++
      toString h.battery ++ ", trainer: " ++ toString h.trainer
  | trainerDropped mapper =>
    "mapper " ++ toString mapper.toNat ++ " has no PRG RAM, trainer dropped"
  | resetVector pc => "reset vector $" ++ Hex.word pc
  | prgBank bank => "UxROM: PRG bank " ++ toString bank ++ " at $8000"
  | bankWindows w =>
    "MMC3: PRG banks " ++ numberList w.prg.toList ++ ", CHR banks " ++ numberList w.chr.toList
  | frameComplete count => "frame " ++ toString count ++ " complete"
  | instruction fetched snapshot => Trace.line fetched snapshot
  | saveLoaded size path => "loaded " ++ toString size ++ " bytes from " ++ path
  | saveUnreadable path reason => "could not read " ++ path ++ ": " ++ reason
  | saveWritten size path => "saved " ++ toString size ++ " bytes to " ++ path
  | saveUnwritable path reason => "could not write " ++ path ++ ": " ++ reason
  | failure message => message

/-- The notice as a line for a terminal.  Trace lines are in columns already and leave out where
they come from. -/
def line (n : Notice) : String :=
  let tag := "\x1b[1;" ++ n.level.colour ++ "m" ++ n.level.name ++ "\x1b[0m "
  match n.level with
  | .trace => tag ++ n.message
  | _ => tag ++ "[" ++ n.source ++ "] " ++ n.message

end Notice

end Nes
