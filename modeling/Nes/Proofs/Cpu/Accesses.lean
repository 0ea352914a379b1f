import Nes.Bus.Recorded
import Nes.Proofs.Cpu.Simulation

/-!
# The accesses of a step

The accesses that an instruction makes are those of the same step over a recorded bus.  What every
access keeps, some of them left out, a step keeps when it makes none of those left out.  An
interrupt writes to the stack alone, and a reset writes nothing.
-/

namespace Nes

variable {β : Type}

instance [Journaled β] : Journaled (Recorded β) where
  journal bus := Journaled.journal bus.device
  onJournal bus f := { bus with device := Journaled.onJournal bus.device f }

theorem Mode.operandLength_cases (mode : Mode) :
    mode.operandLength = 0 ∨ mode.operandLength = 1 ∨ mode.operandLength = 2 := by
  cases mode <;> decide

theorem Operand.resolve_keeps [Bus β] {P : β → Prop}
    (hr : ∀ b addr, P b → P (Bus.read b addr).2) {bus : β} (addr : UInt16) (x y : UInt8)
    (mode : Mode) (h : P bus) : P (resolve bus addr x y mode).2 := by
  have hone := hr bus addr h
  have htwo := hr _ (addr + 1) hone
  cases mode with
  | implied => exact h
  | accumulator => exact h
  | absolute => exact htwo
  | absoluteX => exact htwo
  | absoluteY => exact htwo
  | indirect => exact hr _ _ (hr _ _ htwo)
  | indirectX => exact hr _ _ (hr _ _ hone)
  | indirectY => exact hr _ _ (hr _ _ hone)
  | _ => exact hone

namespace Cpu

section Fetch

variable [Bus β] {r : Registers} {b : β}

theorem fetch_ok {i : Instruction} (h : Instruction.decode (Bus.read b r.pc).1 = some i) :
    fetch ⟨r, b⟩ =
      (.ok ⟨(Bus.read b r.pc).1, i,
        (Operand.resolve (Bus.read b r.pc).2 (r.pc + 1) r.x r.y i.mode).1⟩,
        ⟨r, (Operand.resolve (Bus.read b r.pc).2 (r.pc + 1) r.x r.y i.mode).2⟩) := by
  unfold fetch read resolve askBus
  dsimp only
  rw [h]

theorem fetch_error (h : Instruction.decode (Bus.read b r.pc).1 = none) :
    fetch ⟨r, b⟩ = (.error ⟨r.pc, (Bus.read b r.pc).1⟩, ⟨r, (Bus.read b r.pc).2⟩) := by
  unfold fetch read askBus
  dsimp only
  rw [h]

end Fetch

/-- The accesses of the next step, in order. -/
def stepAccesses [Bus β] [Journaled β] (cpu : Cpu β) : Array Access :=
  let recorded : Cpu (Recorded β) := ⟨cpu.toRegisters, .start cpu.bus⟩
  recorded.stepNoted.2.bus.accesses

/-! ### Steps -/

section Steps

variable {P : β → Prop} {bad : Access → Prop}

/-- The bus behind the record, which has the property unless the record tells why not. -/
def Behind (P : β → Prop) (bad : Access → Prop) (recorded : Recorded β) (bus : β) : Prop :=
  recorded.device = bus ∧ ((∀ a ∈ recorded.accesses, ¬ bad a) → P bus)

theorem behind_notes [Journaled β] (hj : ∀ b f, P b → P (Journaled.onJournal b f)) :
    NotesAlike (Behind P bad) where
  journal := by
    intro recorded bus h
    obtain ⟨rfl, _⟩ := h
    rfl
  onJournal := by
    intro recorded bus f h
    obtain ⟨rfl, hP⟩ := h
    exact ⟨rfl, fun hgood => hj _ f (hP hgood)⟩

variable [Bus β]

theorem behind_simulation
    (hr : ∀ b addr, ¬ bad (.read addr (Bus.read b addr).1) → P b → P (Bus.read b addr).2)
    (hw : ∀ b addr v, ¬ bad (.write addr v) → P b → P (Bus.write b addr v)) :
    Bus.Simulation (Behind P bad) where
  read := by
    intro recorded bus addr h
    obtain ⟨rfl, hP⟩ := h
    refine ⟨rfl, rfl, fun hgood => ?_⟩
    rw [Recorded.accesses_read] at hgood
    have hbefore := hP fun a ha => hgood a (Array.mem_push_of_mem _ ha)
    exact hr _ _ (hgood _ Array.mem_push_self) hbefore
  write := by
    intro recorded bus addr v h
    obtain ⟨rfl, hP⟩ := h
    refine ⟨rfl, fun hgood => ?_⟩
    rw [Recorded.accesses_write] at hgood
    have hbefore := hP fun a ha => hgood a (Array.mem_push_of_mem _ ha)
    exact hw _ _ _ (hgood _ Array.mem_push_self) hbefore

theorem stepNoted_keeps [Journaled β]
    (hr : ∀ b addr, ¬ bad (.read addr (Bus.read b addr).1) → P b → P (Bus.read b addr).2)
    (hw : ∀ b addr v, ¬ bad (.write addr v) → P b → P (Bus.write b addr v))
    (hj : ∀ b f, P b → P (Journaled.onJournal b f)) {cpu : Cpu β}
    (hgood : ∀ a ∈ cpu.stepAccesses, ¬ bad a) (h : P cpu.bus) : P cpu.stepNoted.2.bus := by
  have hstart : Related (Behind P bad) ⟨cpu.toRegisters, .start cpu.bus⟩ cpu :=
    .mk cpu.toRegisters ⟨rfl, fun _ => h⟩
  have hdone := (hstart.stepNoted (behind_simulation hr hw) (behind_notes hj)).state
  exact hdone.bus.2 hgood

end Steps

/-- An instruction is performed on a bus that reads and notes alone have reached. -/
theorem stepNoted_performs [Bus β] [Journaled β] {P : β → Prop}
    (hr : ∀ b addr, P b → P (Bus.read b addr).2)
    (hj : ∀ b f, P b → P (Journaled.onJournal b f)) {cpu : Cpu β} {i : Instruction}
    (hdecode : Instruction.decode (Bus.read cpu.bus cpu.pc).1 = some i) (h : P cpu.bus) :
    ∃ operand bus, P bus ∧ cpu.stepNoted =
      (fun done => (.ok done.1, done.2))
        (perform ⟨(Bus.read cpu.bus cpu.pc).1, i, operand⟩ ⟨cpu.toRegisters, bus⟩) := by
  obtain ⟨r, b⟩ := cpu
  dsimp only at hdecode h ⊢
  have hresolved := Operand.resolve_keeps hr (r.pc + 1) r.x r.y i.mode (hr _ r.pc h)
  unfold stepNoted
  rw [fetch_ok hdecode]
  unfold noteInstruction
  dsimp only
  split
  · exact ⟨_, _, hj _ _ hresolved, rfl⟩
  · exact ⟨_, _, hresolved, rfl⟩

/-! ### Interrupts and resets -/

section Entries

variable [Bus β] {P : β → Prop}

theorem stackAddr_lt (sp : UInt8) : stackAddr sp < 0x0200 := by
  have hsp := sp.toNat_lt
  have h : (stackAddr sp).toNat = 0x0100 + sp.toNat := by
    simp only [stackAddr, UInt16.toNat_add, UInt8.toNat_toUInt16]
    have : (0x0100 : UInt16).toNat = 0x0100 := rfl
    omega
  rw [UInt16.lt_iff_toNat_lt, h]
  show 0x0100 + sp.toNat < 0x0200
  omega

theorem readWord_keeps (hr : ∀ b addr, P b → P (Bus.read b addr).2) {cpu : Cpu β} (addr : UInt16)
    (h : P cpu.bus) : P (cpu.readWord addr).2.bus :=
  hr _ _ (hr _ _ h)

theorem push_keeps (hw : ∀ b addr v, addr < 0x0200 → P b → P (Bus.write b addr v)) {cpu : Cpu β}
    (v : UInt8) (h : P cpu.bus) : P (cpu.push v).bus :=
  hw _ _ _ (stackAddr_lt _) h

theorem interrupt_keeps (hr : ∀ b addr, P b → P (Bus.read b addr).2)
    (hw : ∀ b addr v, addr < 0x0200 → P b → P (Bus.write b addr v)) {cpu : Cpu β}
    (vector : UInt16) (h : P cpu.bus) : P (cpu.interrupt vector).bus :=
  readWord_keeps hr vector (push_keeps hw _ (push_keeps hw _ (push_keeps hw _ h)))

theorem resetNoted_keeps [Journaled β] (hr : ∀ b addr, P b → P (Bus.read b addr).2)
    (hj : ∀ b f, P b → P (Journaled.onJournal b f)) {cpu : Cpu β} (h : P cpu.bus) :
    P cpu.resetNoted.bus :=
  hj _ _ (readWord_keeps hr resetVector h)

end Entries

end Cpu

end Nes
