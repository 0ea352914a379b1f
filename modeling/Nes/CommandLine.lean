import Nes.Notice
import Nes.Config

/-!
# The command line

Options are read from left to right, and the first fault or the first request for help or for
the version settles the outcome.  A value follows its option as `--option=value` or as the next
argument, which then must not look like an option.  After `--` nothing is an option.

famicore declares its options as `Args` and has a library read them.  Of what that library does,
`parse` is the part that decides: which arguments are accepted, what they are read as, and which
fault is reported.  The usage line and the hints after a fault, the colours of its texts and their
layout for the width of a terminal are left out.
-/

namespace Nes.CommandLine

inductive UsageError
  | unknownOption (text : String)
  | unexpectedValue (option : String)
  | missingValue (option : String)
  | invalidValue (option value : String)
  | repeated (option : String)
  | unexpectedArgument (text : String)
  | missingRom
deriving DecidableEq, Repr

def UsageError.message : UsageError → String
  | unknownOption text => "unexpected argument '" ++ text ++ "' found"
  | unexpectedValue option => "unexpected value for '--" ++ option ++ "' found"
  | missingValue option => "a value is required for '--" ++ option ++ "' but none was supplied"
  | invalidValue option value => "invalid value '" ++ value ++ "' for '" ++ option ++ "'"
  | repeated option => "the argument '--" ++ option ++ "' cannot be used multiple times"
  | unexpectedArgument text => "unexpected argument '" ++ text ++ "' found"
  | missingRom => "the following required arguments were not provided: <ROM>"

/-- A run that was asked for: the image, the options, and how far notices go. -/
structure Options where
  rom : String
  config : Config
  logLimit : Option Level
deriving DecidableEq, Repr

inductive Request
  | run (options : Options)
  | version
  | help
deriving DecidableEq, Repr

inductive Switch
  | headless
  | trace
  | noSave
  | version
  | help
deriving DecidableEq, Repr

/-- Options with a value. -/
inductive Setting
  | scale
  | frames
  | timing
  | logLevel
deriving DecidableEq, Repr

def Switch.name : Switch → String
  | headless => "headless"
  | trace => "trace"
  | noSave => "no-save"
  | version => "version"
  | help => "help"

def Setting.name : Setting → String
  | scale => "scale"
  | frames => "frames"
  | timing => "timing"
  | logLevel => "log-level"

def Switch.ofName? (name : String) : Option Switch :=
  [headless, trace, noSave, version, help].find? (·.name == name)

def Setting.ofName? (name : String) : Option Setting :=
  [scale, frames, timing, logLevel].find? (·.name == name)

/-! ### Values -/

/-- A decimal number of 64 bits, with or without a plus sign. -/
def number? (text : String) : Option Nat :=
  let digits :=
    match text.toList with
    | '+' :: rest => rest
    | cs => cs
  if digits.isEmpty || digits.any (!·.isDigit) then none
  else
    let n := digits.foldl (fun n c => n * 10 + (c.toNat - '0'.toNat)) 0
    if n < UInt64.size then some n else none

/-- The level up to which notices are shown, the case of its letters not counting. -/
def logLimit? (text : String) : Option (Option Level) :=
  match text.map Char.toUpper with
  | "OFF" => some none
  | upper => ([.error, .warn, .info, .debug, .trace].find? (·.name == upper)).map some

/-! ### Reading -/

structure Draft where
  rom : Option String := none
  scale : Option Nat := none
  frames : Option Nat := none
  timing : Option Timing := none
  logLimit : Option (Option Level) := none
  headless : Bool := false
  trace : Bool := false
  noSave : Bool := false
deriving DecidableEq, Repr, Inhabited

namespace Draft

/-- A value that is not yet there, put in its place. -/
def fill {α : Type} (option value : String) (old new : Option α) (put : α → Draft) :
    Except UsageError Draft :=
  match new, old with
  | none, _ => .error (.invalidValue option value)
  | some _, some _ => .error (.repeated option)
  | some v, none => .ok (put v)

def set (d : Draft) (setting : Setting) (value : String) : Except UsageError Draft :=
  match setting with
  | .scale => fill setting.name value d.scale (number? value) ({ d with scale := some · })
  | .frames => fill setting.name value d.frames (number? value) ({ d with frames := some · })
  | .timing =>
    fill setting.name value d.timing (Timing.ofName? false value) ({ d with timing := some · })
  | .logLevel =>
    fill setting.name value d.logLimit (logLimit? value) ({ d with logLimit := some · })

/-- A switch turned on, unless it is one that settles the outcome. -/
def turnOn (d : Draft) (switch : Switch) : Except UsageError (Request ⊕ Draft) :=
  let once (old : Bool) (d : Draft) : Except UsageError (Request ⊕ Draft) :=
    if old then .error (.repeated switch.name) else .ok (.inr d)
  match switch with
  | .headless => once d.headless { d with headless := true }
  | .trace => once d.trace { d with trace := true }
  | .noSave => once d.noSave { d with noSave := true }
  | .version => .ok (.inl .version)
  | .help => .ok (.inl .help)

def setRom (d : Draft) (text : String) : Except UsageError Draft :=
  match d.rom with
  | some _ => .error (.unexpectedArgument text)
  | none =>
    if text.isEmpty then .error (.invalidValue "<ROM>" text) else .ok { d with rom := some text }

/-- Everything read: what was not given has its usual value, and a trace shows everything. -/
def finish (d : Draft) : Except UsageError Options :=
  match d.rom with
  | none => .error .missingRom
  | some rom =>
    .ok {
      rom
      config := {
        timing := d.timing.getD .instruction
        scale := d.scale.getD 2
        frameLimit := d.frames
        headless := d.headless
        saveBattery := !d.noSave }
      logLimit := if d.trace then some .trace else d.logLimit.getD (some .info) }

end Draft

inductive Argument
  | separator
  | long (name : String) (value : Option String)
  | short (letters : List Char)
  | plain (text : String)
deriving DecidableEq, Repr

/-- A single hyphen is plain. -/
def Argument.ofString (text : String) : Argument :=
  match text.toList with
  | ['-', '-'] => .separator
  | '-' :: '-' :: rest =>
    let name := String.ofList (rest.takeWhile (· != '='))
    match rest.dropWhile (· != '=') with
    | [] => .long name none
    | _ :: value => .long name (some (String.ofList value))
  | '-' :: c :: rest => .short (c :: rest)
  | _ => .plain text

/-- The letters that may stand after one hyphen; the first of them settles the outcome. -/
def shortSwitch? : List Char → Option Switch
  | 'V' :: _ => some .version
  | 'h' :: _ => some .help
  | _ => none

def readPlain (d : Draft) (args : List String) : Except UsageError Draft :=
  args.foldlM Draft.setRom d

def read (d : Draft) : List String → Except UsageError Request
  | [] => d.finish.map .run
  | arg :: rest =>
    match Argument.ofString arg with
    | .separator => do
      let d ← readPlain d rest
      d.finish.map .run
    | .plain text => do
      let d ← d.setRom text
      read d rest
    | .short letters =>
      match shortSwitch? letters with
      | none => .error (.unknownOption arg)
      | some switch => do
        match ← d.turnOn switch with
        | .inl request => .ok request
        | .inr d => read d rest
    | .long name value =>
      match Switch.ofName? name, Setting.ofName? name, value with
      | some _, _, some _ => .error (.unexpectedValue name)
      | some switch, _, none => do
        match ← d.turnOn switch with
        | .inl request => .ok request
        | .inr d => read d rest
      | none, some setting, some value => do
        let d ← d.set setting value
        read d rest
      | none, some setting, none =>
        match rest with
        | [] => .error (.missingValue name)
        | value :: rest =>
          match Argument.ofString value with
          | .plain value => do
            let d ← d.set setting value
            read d rest
          | _ => .error (.missingValue name)
      | none, none, _ => .error (.unknownOption arg)

def parse (args : List String) : Except UsageError Request := read {} args

/-! ### Texts -/

def versionText : String := "famicore 0.1.0\n"

def helpText : String :=
  "NES emulator\n\n" ++
  "Usage: famicore [OPTIONS] <ROM>\n\n" ++
  "Arguments:\n" ++
  "  <ROM>  Path to the iNES ROM file\n\n" ++
  "Options:\n" ++
  "      --scale <SCALE>          Window scale (1, 2, 4 or 8) [default: 2]\n" ++
  "      --frames <FRAMES>        Stop after this many frames\n" ++
  "      --headless               Run without a window and print the CPU state at the end\n" ++
  "      --timing <TIMING>        PPU dots per instruction or per CPU cycle " ++
  "[default: instruction]\n" ++
  "      --log-level <LOG_LEVEL>  Maximum log level (off, error, warn, info, debug, trace) " ++
  "[default: INFO]\n" ++
  "      --trace                  Log every executed instruction (same as --log-level trace)\n" ++
  "      --no-save                Do not write battery-backed RAM to <rom>.sav\n" ++
  "  -h, --help                   Print help\n" ++
  "  -V, --version                Print version\n"

end Nes.CommandLine
