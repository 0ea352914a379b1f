import Nes.CommandLine
import Nes.Console
import Nes.Host
import Nes.Host.Path

/-!
# Sessions

A session loads an image, puts a save over the memory that its battery keeps, runs the console
for a number of frames and writes the save again, even when the run ended at an unknown opcode.
Its exit code is zero exactly when neither the load nor the run failed.

`run`, `loadSave`, `writeSave` and `play` are famicore's `run`, `load_save`, `write_save` and
`run_headless`, `loadCartridge` is `load` of its `Cartridge`, and `exitCode` the end of its
`main`.  The window of its `run_window`, with the keys and the pace that go with one, is left out:
a session without `--headless` boots and keeps its save as any other, and ends in between with
`noDisplay`.
-/

namespace Nes.Session

inductive SessionError
  | load (e : LoadError)
  | opcode (e : UnknownOpcode)
  | noDisplay
deriving DecidableEq, Repr

def SessionError.message : SessionError → String
  | load e => e.message
  | opcode e => e.message
  | noDisplay => "no display, run with --headless"

def usualFrames : Nat := 60

def savePath (rom : String) : String := Path.withExtension rom "sav"

def summary (c : Console) : String :=
  "frames: " ++ toString c.frameCount ++ "  PC:" ++ Hex.word c.cpu.pc ++ " " ++
    Trace.registerColumn (.of c.cpu.toRegisters) ++ "\n"

variable {m : Type → Type} [Monad m] [Host m]

/-- A notice reported, if it is within the limit. -/
def tell (limit : Option Level) (n : Notice) : m Unit :=
  if (Journal.mk limit #[]).admits n.level then Host.report n else pure ()

/-- The console's notices reported, and the console without them. -/
def flush (c : Console) : m Console := do
  let (notices, c) := c.takeNotices
  notices.forM Host.report
  return c

/-- The save laid over the memory that the battery keeps. -/
def loadSave (limit : Option Level) (path : String) (c : Cartridge) : m Cartridge := do
  match ← Host.readFile path with
  | .contents bytes =>
    match c.loadPrgRam bytes with
    | (true, c) => do
      tell limit (.saveLoaded bytes.size path)
      return c
    | (false, c) => return c
  | .missing => return c
  | .failed reason => do
    tell limit (.saveUnreadable path reason)
    return c

def writeSave (limit : Option Level) (path : String) (c : Console) : m Unit := do
  match c.cpu.bus.cartridge.board.prgRam? with
  | none => return ()
  | some ram =>
    match ← Host.writeFile path ram.toArray with
    | none => tell limit (.saveWritten ram.toArray.size path)
    | some reason => tell limit (.saveUnwritable path reason)

/-- A number of frames, notices reported after each. -/
def runFrames : Nat → Console → m (Except UnknownOpcode Unit × Console)
  | 0, c => return (.ok (), c)
  | n + 1, c => do
    let (result, c) := c.runFrame
    let c ← flush c
    match result with
    | .error e => return (.error e, c)
    | .ok _ => runFrames n c

def play (config : Config) (c : Console) : m (Except SessionError Unit × Console) := do
  if config.headless then
    let (result, c) ← runFrames (config.frameLimit.getD usualFrames) c
    match result with
    | .error e => return (.error (.opcode e), c)
    | .ok _ => do
      Host.print (summary c)
      return (.ok (), c)
  else return (.error .noDisplay, c)

def loadCartridge (limit : Option Level) (path : String) : m (Except SessionError Cartridge) := do
  match ← Host.readFile path with
  | .contents data => do
    (Cartridge.loadNotices data).forM (tell limit)
    return (Cartridge.ofBytes data).mapError .load
  | _ => return .error (.load (.unreadable path))

/-- The console that a session plays on: the cartridge with its save, and power on. -/
def boot (o : CommandLine.Options) (cartridge : Cartridge) : m Console := do
  let cartridge ←
    if cartridge.header.battery then loadSave o.logLimit (savePath o.rom) cartridge
    else pure cartridge
  flush (Console.powerOn cartridge o.config.timing ⟨o.logLimit, #[]⟩)

/-- A session up to its end or its first failure. -/
def run (o : CommandLine.Options) : m (Except SessionError Unit) := do
  match ← loadCartridge o.logLimit o.rom with
  | .error e => return .error e
  | .ok cartridge => do
    let c ← boot o cartridge
    let (result, c) ← play o.config c
    if cartridge.header.battery && o.config.saveBattery then
      writeSave o.logLimit (savePath o.rom) c
    return result

def exitCode (o : CommandLine.Options) : m Nat := do
  match ← run o with
  | .ok _ => return 0
  | .error e => do
    tell o.logLimit (.failure e.message)
    return 1

end Nes.Session
