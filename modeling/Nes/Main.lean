import Nes.Session

/-!
# The program

The command line, over real files and the standard streams.

`main` is famicore's `main`, of which `Session.exitCode` is the larger part.
-/

namespace Nes

/-- A system error with its number. -/
def systemReason (code : UInt32) (details : String) : String :=
  let number := if code < 0x80000000 then code else 0 - code
  details.capitalize ++ " (os error " ++ toString number.toNat ++ ")"

/-- Why a file could not be read or written. -/
def failureReason : IO.Error → String
  | .noFileOrDirectory _ code _ => systemReason code "no such file or directory"
  | .alreadyExists _ code details | .invalidArgument _ code details
  | .permissionDenied _ code details | .resourceExhausted _ code details
  | .inappropriateType _ code details | .noSuchThing _ code details
  | .interrupted _ code details | .resourceBusy code details | .resourceVanished code details
  | .unsupportedOperation code details | .hardwareFault code details
  | .unsatisfiedConstraints code details | .illegalOperation code details
  | .protocolError code details | .timeExpired code details | .otherError code details =>
    systemReason code details
  | e => toString e

instance : Host IO where
  readFile path := do
    try
      return .contents (← IO.FS.readBinFile path).data
    catch
      | .noFileOrDirectory .. => return .missing
      | e => return .failed (failureReason e)
  writeFile path bytes := do
    try
      IO.FS.writeBinFile path ⟨bytes⟩
      return none
    catch e => return some (failureReason e)
  report n := IO.eprintln n.line
  print text := IO.print text

end Nes

def main (args : List String) : IO UInt32 := do
  match Nes.CommandLine.parse args with
  | .error e =>
    IO.eprintln ("error: " ++ e.message)
    return 2
  | .ok .version =>
    IO.print Nes.CommandLine.versionText
    return 0
  | .ok .help =>
    IO.print Nes.CommandLine.helpText
    return 0
  | .ok (.run options) => return (← Nes.Session.exitCode options : Nat).toUInt32
