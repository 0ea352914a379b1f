import Nes.Bus
import Nes.Journal

/-!
# Buses that keep a journal

A bus may carry a journal, to which the processor adds each instruction before it runs it and
the vector of each reset.  Any bus becomes such a bus by laying a journal beside it.

With the records that they log, famicore's `step` and `reset` are `stepNoted` and `resetNoted`;
`noteInstruction` is its `trace`.
-/

namespace Nes

class Journaled (β : Type) where
  journal : β → Journal
  onJournal : β → (Journal → Journal) → β

namespace Cpu

variable {β : Type} [Bus β] [Journaled β]

/-- A fetched instruction noted, if the journal goes that far. -/
@[inline] def noteInstruction (cpu : Cpu β) (f : Fetched) : Cpu β :=
  match cpu with
  | ⟨r, bus⟩ =>
    if (Journaled.journal bus).admits .trace then
      ⟨r, Journaled.onJournal bus (·.add (.instruction f (.of r)))⟩
    else ⟨r, bus⟩

/-- One instruction, noted between its fetch and its effects. -/
@[specialize] def stepNoted (cpu : Cpu β) : Except UnknownOpcode Nat × Cpu β :=
  match cpu.fetch with
  | (.error e, cpu) => (.error e, cpu)
  | (.ok f, cpu) =>
    match (cpu.noteInstruction f).perform f with
    | (cycles, cpu) => (.ok cycles, cpu)

/-- A reset, noted with the address found at its vector. -/
@[specialize] def resetNoted (cpu : Cpu β) : Cpu β :=
  match cpu.reset with
  | (pc, ⟨r, bus⟩) => ⟨r, Journaled.onJournal bus (·.add (.resetVector pc))⟩

end Cpu

/-- A bus with a journal beside it. -/
structure Logged (β : Type) where
  device : β
  journal : Journal

instance {β : Type} : Journaled (Logged β) where
  journal bus := bus.journal
  onJournal bus f :=
    match bus with
    | ⟨device, journal⟩ => ⟨device, f journal⟩

instance {β : Type} [Bus β] : Bus (Logged β) where
  read bus addr :=
    match bus with
    | ⟨device, journal⟩ =>
      match Bus.read device addr with
      | (v, device) => (v, ⟨device, journal⟩)
  write bus addr v :=
    match bus with
    | ⟨device, journal⟩ => ⟨Bus.write device addr v, journal⟩

end Nes
