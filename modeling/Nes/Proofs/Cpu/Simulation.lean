import Nes.Bus.Journaled
import Nes.Proofs.Bus.Simulation

/-!
# Processors over related buses

Processors with the same registers over related buses do the same in each of their parts, from a
single access to a whole step, and are left with the same registers over related buses.  With the
equality of buses that satisfy a property for relation, this says that a property which every
access keeps is kept by every step.
-/

namespace Nes.Cpu

/-- The same registers over related buses. -/
inductive Related {β γ : Type} (R : β → γ → Prop) : Cpu β → Cpu γ → Prop
  | mk (r : Registers) {b : β} {c : γ} (h : R b c) : Related R ⟨r, b⟩ ⟨r, c⟩

namespace Related

section Parts

variable {β γ : Type} {R : β → γ → Prop} {p : Cpu β} {q : Cpu γ}

theorem registers (h : Related R p q) : p.toRegisters = q.toRegisters := by
  cases h
  rfl

theorem bus (h : Related R p q) : R p.bus q.bus := by
  cases h with
  | mk r h => exact h

theorem onRegisters (h : Related R p q) (f : Registers → Registers) :
    Related R (p.onRegisters f) (q.onRegisters f) := by
  cases h with
  | mk r h => exact .mk (f r) h

theorem onBus (h : Related R p q) {f : β → β} {g : γ → γ}
    (hbus : ∀ {b : β} {c : γ}, R b c → R (f b) (g c)) : Related R (p.onBus f) (q.onBus g) := by
  cases h with
  | mk r h => exact .mk r (hbus h)

theorem branch (h : Related R p q) (op : BranchOp) (operand : Operand) :
    Alike (Related R) (p.branch op operand) (q.branch op operand) := by
  unfold Cpu.branch
  rw [h.registers]
  split
  · exact .pair _ (h.onRegisters _)
  · exact .pair _ h

end Parts

variable {β γ : Type} [Bus β] [Bus γ] {R : β → γ → Prop} {p : Cpu β} {q : Cpu γ}

/-! ### Accesses -/

theorem read (h : Related R p q) (hs : Bus.Simulation R) (addr : UInt16) :
    Alike (Related R) (p.read addr) (q.read addr) := by
  cases h with
  | mk r h =>
    obtain ⟨hv, h⟩ := hs.read addr h
    exact ⟨hv, .mk r h⟩

theorem readWord (h : Related R p q) (hs : Bus.Simulation R) (addr : UInt16) :
    Alike (Related R) (p.readWord addr) (q.readWord addr) := by
  cases h with
  | mk r h =>
    obtain ⟨hw, h⟩ := hs.readPair addr (addr + 1) h
    exact ⟨hw, .mk r h⟩

theorem write (h : Related R p q) (hs : Bus.Simulation R) (addr : UInt16) (v : UInt8) :
    Related R (p.write addr v) (q.write addr v) := by
  cases h with
  | mk r h => exact .mk r (hs.write addr v h)

theorem push (h : Related R p q) (hs : Bus.Simulation R) (v : UInt8) :
    Related R (p.push v) (q.push v) := by
  unfold Cpu.push
  rw [h.registers]
  exact (h.write hs _ v).onRegisters _

theorem pushWord (h : Related R p q) (hs : Bus.Simulation R) (w : UInt16) :
    Related R (p.pushWord w) (q.pushWord w) :=
  (h.push hs _).push hs _

theorem pop (h : Related R p q) (hs : Bus.Simulation R) : Alike (Related R) p.pop q.pop := by
  have hmoved := h.onRegisters fun r => { r with sp := r.sp + 1 }
  unfold Cpu.pop
  dsimp only
  rw [hmoved.registers]
  exact hmoved.read hs _

theorem popWord (h : Related R p q) (hs : Bus.Simulation R) :
    Alike (Related R) p.popWord q.popWord := by
  obtain ⟨hlo, h⟩ := h.pop hs
  obtain ⟨hhi, h⟩ := h.pop hs
  unfold Cpu.popWord
  dsimp only
  rw [hlo, hhi]
  exact .pair _ h

theorem load (h : Related R p q) (hs : Bus.Simulation R) (place : Place) :
    Alike (Related R) (p.load place) (q.load place) := by
  cases place with
  | accumulator => exact ⟨congrArg Registers.a h.registers, h⟩
  | literal v => exact .pair _ h
  | memory addr => exact h.read hs addr

theorem store (h : Related R p q) (hs : Bus.Simulation R) (place : Place) (v : UInt8) :
    Related R (p.store place v) (q.store place v) := by
  cases place with
  | memory addr => exact h.write hs addr v
  | _ => exact h

theorem modify (h : Related R p q) (hs : Bus.Simulation R) (place : Place) (op : ModifyOp) :
    Alike (Related R) (p.modify place op) (q.modify place op) := by
  obtain ⟨hv, h⟩ := h.load hs place
  unfold Cpu.modify
  dsimp only
  rw [hv, h.registers]
  generalize op.apply (q.load place).2.flags (q.load place).1 = result
  have hchanged := h.onRegisters fun r => { r with flags := result.2 }
  cases place with
  | memory addr => exact .pair _ (hchanged.write hs addr result.1)
  | _ => exact .pair _ (hchanged.onRegisters fun r => { r with a := result.1 })

/-! ### Interrupts -/

theorem enter (h : Related R p q) (hs : Bus.Simulation R) (returnTo : UInt16) (software : Bool)
    (vector : UInt16) : Related R (p.enter returnTo software vector)
      (q.enter returnTo software vector) := by
  obtain ⟨hpc, hread⟩ :=
    ((h.pushWord hs returnTo).push hs (q.flags.pushed software)).readWord hs vector
  unfold Cpu.enter
  dsimp only
  rw [h.registers, hpc]
  exact hread.onRegisters _

/-! ### Instructions -/

theorem control (h : Related R p q) (hs : Bus.Simulation R) (op : ControlOp) (operand : Operand) :
    Related R (p.control op operand) (q.control op operand) := by
  cases op with
  | pha =>
    unfold Cpu.control
    dsimp only
    rw [h.registers]
    exact h.push hs _
  | php =>
    unfold Cpu.control
    dsimp only
    rw [h.registers]
    exact h.push hs _
  | pla =>
    obtain ⟨hv, h⟩ := h.pop hs
    unfold Cpu.control
    dsimp only
    rw [hv]
    exact h.onRegisters _
  | plp =>
    obtain ⟨hv, h⟩ := h.pop hs
    unfold Cpu.control
    dsimp only
    rw [hv]
    exact h.onRegisters _
  | jmp =>
    unfold Cpu.control
    dsimp only
    exact h.onRegisters _
  | jsr =>
    unfold Cpu.control
    dsimp only
    rw [h.registers]
    exact (h.pushWord hs _).onRegisters _
  | rts =>
    obtain ⟨hw, h⟩ := h.popWord hs
    unfold Cpu.control
    dsimp only
    rw [hw]
    exact h.onRegisters _
  | rti =>
    obtain ⟨hv, h⟩ := h.pop hs
    obtain ⟨hw, h⟩ := h.popWord hs
    unfold Cpu.control
    dsimp only
    rw [hv, hw]
    exact h.onRegisters _
  | brk =>
    unfold Cpu.control
    dsimp only
    rw [h.registers]
    exact h.enter hs _ true irqVector

theorem execute (h : Related R p q) (hs : Bus.Simulation R) (op : Operation) (operand : Operand) :
    Alike (Related R) (p.execute op operand) (q.execute op operand) := by
  cases op with
  | read op =>
    obtain ⟨hv, h⟩ := h.load hs operand.place
    unfold Cpu.execute
    dsimp only
    rw [hv]
    exact .pair _ (h.onRegisters _)
  | write op =>
    unfold Cpu.execute
    dsimp only
    rw [h.registers]
    exact .pair _ (h.store hs _ _)
  | modify op =>
    obtain ⟨hv, h⟩ := h.modify hs operand.place op
    unfold Cpu.execute
    dsimp only
    rw [hv]
    exact .pair _ (h.onRegisters _)
  | combined op =>
    obtain ⟨hv, h⟩ := h.modify hs operand.place op.change
    unfold Cpu.execute
    dsimp only
    rw [hv]
    exact .pair _ (h.onRegisters _)
  | register op => exact .pair _ (h.onRegisters _)
  | branch op => exact h.branch op operand
  | control op => exact .pair _ (h.control hs op operand)
  | nop => exact .pair _ h

theorem resolve (h : Related R p q) (hs : Bus.Simulation R) (mode : Mode) :
    Alike (Related R) (p.resolve mode) (q.resolve mode) := by
  cases h with
  | mk r h =>
    obtain ⟨ho, h⟩ := hs.resolve (r.pc + 1) r.x r.y mode h
    exact ⟨ho, .mk r h⟩

theorem fetch (h : Related R p q) (hs : Bus.Simulation R) :
    Alike (Related R) p.fetch q.fetch := by
  obtain ⟨hopcode, hread⟩ := h.read hs q.pc
  unfold Cpu.fetch
  rw [h.registers]
  dsimp only
  rw [hopcode, hread.registers]
  split
  · exact .pair _ hread
  · obtain ⟨hoperand, hresolved⟩ := hread.resolve hs _
    rw [hoperand]
    exact .pair _ hresolved

theorem perform (h : Related R p q) (hs : Bus.Simulation R) (f : Fetched) :
    Alike (Related R) (p.perform f) (q.perform f) := by
  obtain ⟨hextra, hdone⟩ := (h.onRegisters fun r =>
    { r with pc := r.pc + (1 + f.instruction.mode.operandLength).toUInt16 }).execute hs
      f.instruction.operation f.operand
  unfold Cpu.perform
  dsimp only
  rw [hextra]
  exact .pair _ (hdone.onRegisters _)

theorem step (h : Related R p q) (hs : Bus.Simulation R) : Alike (Related R) p.step q.step := by
  obtain ⟨fetched, p', q', hp, hq, hfetch⟩ := (h.fetch hs).parts
  unfold Cpu.step
  rw [hp, hq]
  cases fetched with
  | error e => exact .pair _ hfetch
  | ok f =>
    obtain ⟨hcycles, hdone⟩ := hfetch.perform hs f
    dsimp only
    rw [hcycles]
    exact .pair _ hdone

end Related

/-! ### Steps -/

/-- Related buses have the same journal, and noting leaves them related. -/
structure NotesAlike {β γ : Type} [Journaled β] [Journaled γ] (R : β → γ → Prop) : Prop where
  journal : ∀ {b : β} {c : γ}, R b c → Journaled.journal b = Journaled.journal c
  onJournal : ∀ {b : β} {c : γ} (f : Journal → Journal),
    R b c → R (Journaled.onJournal b f) (Journaled.onJournal c f)

namespace Related

variable {β γ : Type} [Journaled β] [Journaled γ] {R : β → γ → Prop} {p : Cpu β} {q : Cpu γ}

theorem noteInstruction (h : Related R p q) (hn : NotesAlike R) (f : Fetched) :
    Related R (p.noteInstruction f) (q.noteInstruction f) := by
  cases h with
  | mk r h =>
    unfold Cpu.noteInstruction
    dsimp only
    rw [hn.journal h]
    split
    · exact .mk r (hn.onJournal _ h)
    · exact .mk r h

variable [Bus β] [Bus γ]

theorem stepNoted (h : Related R p q) (hs : Bus.Simulation R) (hn : NotesAlike R) :
    Alike (Related R) p.stepNoted q.stepNoted := by
  obtain ⟨fetched, p', q', hp, hq, hfetch⟩ := (h.fetch hs).parts
  unfold Cpu.stepNoted
  rw [hp, hq]
  cases fetched with
  | error e => exact .pair _ hfetch
  | ok f =>
    obtain ⟨hcycles, hdone⟩ := (hfetch.noteInstruction hn f).perform hs f
    dsimp only
    rw [hcycles]
    exact .pair _ hdone

end Related

end Nes.Cpu
