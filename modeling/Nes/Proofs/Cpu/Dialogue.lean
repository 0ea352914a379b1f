import Mathlib.Tactic.Choose
import Nes.Proofs.Cpu.Accesses

/-!
# Steps as dialogues

The processor sees of its bus only the bytes that it is answered with.  A step is therefore a
dialogue, the same over every bus: a tree of reads and writes whose branches are the answers.  Two
buses that answer alike as long as no access of a certain kind is made lead a dialogue to the same
end, if it makes none.
-/

namespace Nes

/-- A relation of buses that no access can tell apart or bring out of step, but for the bad ones. -/
structure Bus.PartialSimulation {β γ : Type} [Bus β] [Bus γ] (R : β → γ → Prop)
    (bad : Access → Prop) : Prop where
  read : ∀ {b : β} {c : γ} (addr : UInt16), R b c → ¬ bad (.read addr (Bus.read b addr).1) →
    Alike R (Bus.read b addr) (Bus.read c addr)
  write : ∀ {b : β} {c : γ} (addr : UInt16) (v : UInt8), R b c → ¬ bad (.write addr v) →
    R (Bus.write b addr v) (Bus.write c addr v)

/-- Accesses, each settled by the bytes read before it, and then an answer. -/
inductive Dialogue (α : Type)
  | done (a : α)
  | read (addr : UInt16) (next : UInt8 → Dialogue α)
  | write (addr : UInt16) (v : UInt8) (next : Dialogue α)

namespace Dialogue

variable {α δ : Type}

def bind (d : Dialogue α) (f : α → Dialogue δ) : Dialogue δ :=
  match d with
  | done a => f a
  | read addr next => .read addr fun v => (next v).bind f
  | write addr v next => .write addr v (next.bind f)

variable {β : Type} [Bus β]

def run : Dialogue α → β → α × β
  | done a, bus => (a, bus)
  | read addr next, bus => (next (Bus.read bus addr).1).run (Bus.read bus addr).2
  | write addr v next, bus => next.run (Bus.write bus addr v)

/-- The accesses that are made over a bus. -/
def accesses : Dialogue α → β → List Access
  | done _, _ => []
  | read addr next, bus => .read addr (Bus.read bus addr).1 ::
    (next (Bus.read bus addr).1).accesses (Bus.read bus addr).2
  | write addr v next, bus => .write addr v :: next.accesses (Bus.write bus addr v)

theorem run_bind (d : Dialogue α) (f : α → Dialogue δ) (bus : β) :
    (d.bind f).run bus = (f (d.run bus).1).run (d.run bus).2 := by
  induction d generalizing bus with
  | done a => rfl
  | read addr next ih => exact ih _ _
  | write addr v next ih => exact ih _

theorem run_recorded (d : Dialogue α) (bus : Recorded β) : d.run bus =
    ((d.run bus.device).1,
      ⟨(d.run bus.device).2, bus.accesses ++ (d.accesses bus.device).toArray⟩) := by
  induction d generalizing bus with
  | done a => simp [run, accesses]
  | read addr next ih =>
    unfold run accesses
    rw [ih]
    simp
  | write addr v next ih =>
    unfold run accesses
    rw [ih]
    simp

theorem run_alike {γ : Type} [Bus γ] {R : β → γ → Prop} {bad : Access → Prop}
    (hs : Bus.PartialSimulation R bad) (d : Dialogue α) {b : β} {c : γ} (h : R b c)
    (hgood : ∀ a ∈ d.accesses b, ¬ bad a) : Alike R (d.run b) (d.run c) := by
  induction d generalizing b c with
  | done a => exact .pair a h
  | read addr next ih =>
    obtain ⟨hfirst, hrest⟩ := List.forall_mem_cons.1 hgood
    obtain ⟨hanswer, hread⟩ := hs.read addr h hfirst
    -- the same answer takes both runs to the same branch
    unfold run
    rw [← hanswer]
    exact ih _ hread hrest
  | write addr v next ih =>
    obtain ⟨hfirst, hrest⟩ := List.forall_mem_cons.1 hgood
    exact ih (hs.write addr v h hfirst) hrest

end Dialogue

namespace Cpu

/-! ### What the processor does is a dialogue -/

/-- A part of the processor that is the same dialogue over every bus, whatever the registers are. -/
def Speaks {α : Type} (act : ∀ (β : Type) [Bus β], Cpu β → α × Cpu β) : Prop :=
  ∀ r : Registers, ∃ d : Dialogue (α × Registers), ∀ (β : Type) [Bus β] (bus : β),
    act β ⟨r, bus⟩ = ((d.run bus).1.1, ⟨(d.run bus).1.2, (d.run bus).2⟩)

namespace Speaks

variable {α δ : Type}

theorem congr {act other : ∀ (β : Type) [Bus β], Cpu β → α × Cpu β} (h : Speaks act)
    (hsame : ∀ (β : Type) [Bus β] (cpu : Cpu β), other β cpu = act β cpu) : Speaks other := by
  intro r
  obtain ⟨d, hd⟩ := h r
  exact ⟨d, fun β _ bus => (hsame β _).trans (hd β bus)⟩

theorem pure (f : Registers → α × Registers) :
    Speaks fun _ _ cpu => ((f cpu.toRegisters).1, ⟨(f cpu.toRegisters).2, cpu.bus⟩) :=
  fun r => ⟨.done (f r), fun _ _ _ => rfl⟩

theorem answer (a : α) : Speaks fun _ _ cpu => (a, cpu) := .pure fun r => (a, r)

theorem read (addr : UInt16) : Speaks fun _ _ cpu => cpu.read addr :=
  fun r => ⟨.read addr fun v => .done (v, r), fun _ _ _ => rfl⟩

theorem write (addr : UInt16) (v : UInt8) : Speaks fun _ _ cpu => ((), cpu.write addr v) :=
  fun r => ⟨.write addr v (.done ((), r)), fun _ _ _ => rfl⟩

/-- One part after the other, which may depend on its answer. -/
theorem bind {act : ∀ (β : Type) [Bus β], Cpu β → α × Cpu β}
    {more : α → ∀ (β : Type) [Bus β], Cpu β → δ × Cpu β} (h : Speaks act)
    (hmore : ∀ a, Speaks (more a)) :
    Speaks fun β _ cpu => more (act β cpu).1 β (act β cpu).2 := by
  intro r
  obtain ⟨d, hd⟩ := h r
  choose e he using hmore
  refine ⟨d.bind fun result => e result.1 result.2, fun β _ bus => ?_⟩
  dsimp only
  rw [Dialogue.run_bind, hd β bus]
  exact he _ _ β _

/-- A part that the registers choose. -/
theorem given {act : Registers → ∀ (β : Type) [Bus β], Cpu β → α × Cpu β}
    (h : ∀ r, Speaks (act r)) : Speaks fun β _ cpu => act cpu.toRegisters β cpu :=
  fun r => h r r

/-! ### Accesses -/

theorem readWord (addr : UInt16) : Speaks fun _ _ cpu => cpu.readWord addr :=
  (read addr).bind fun lo => (read (addr + 1)).bind fun hi => .pure fun r => (Word.ofBytes lo hi, r)

theorem push (v : UInt8) : Speaks fun _ _ cpu => ((), cpu.push v) :=
  fun r => ⟨.write (stackAddr r.sp) v (.done ((), { r with sp := r.sp - 1 })), fun _ _ _ => rfl⟩

theorem pop : Speaks fun _ _ cpu => cpu.pop :=
  fun r => ⟨.read (stackAddr (r.sp + 1)) fun v => .done (v, { r with sp := r.sp + 1 }),
    fun _ _ _ => rfl⟩

theorem pushWord (w : UInt16) : Speaks fun _ _ cpu => ((), cpu.pushWord w) :=
  (push (Word.hi w)).bind fun _ => push (Word.lo w)

theorem popWord : Speaks fun _ _ cpu => cpu.popWord :=
  pop.bind fun lo => pop.bind fun hi => .pure fun r => (Word.ofBytes lo hi, r)

theorem load (place : Place) : Speaks fun _ _ cpu => cpu.load place := by
  cases place with
  | accumulator => exact .pure fun r => (r.a, r)
  | literal v => exact .pure fun r => (v, r)
  | memory addr => exact read addr

theorem store (place : Place) (v : UInt8) : Speaks fun _ _ cpu => ((), cpu.store place v) := by
  cases place with
  | memory addr => exact write addr v
  | _ => exact .pure fun r => ((), r)

theorem modify (place : Place) (op : ModifyOp) : Speaks fun _ _ cpu => cpu.modify place op := by
  intro r
  cases place with
  | accumulator =>
    exact ⟨.done ((op.apply r.flags r.a).1, { r with
      a := (op.apply r.flags r.a).1
      flags := (op.apply r.flags r.a).2 }), fun _ _ _ => rfl⟩
  | literal v =>
    exact ⟨.done ((op.apply r.flags v).1, { r with
      a := (op.apply r.flags v).1
      flags := (op.apply r.flags v).2 }), fun _ _ _ => rfl⟩
  | memory addr =>
    exact ⟨.read addr fun v => .write addr (op.apply r.flags v).1 (.done ((op.apply r.flags v).1,
      { r with flags := (op.apply r.flags v).2 })), fun _ _ _ => rfl⟩

/-! ### Instructions -/

theorem enter (returnTo : UInt16) (software : Bool) (vector : UInt16) :
    Speaks fun _ _ cpu => ((), cpu.enter returnTo software vector) :=
  .given fun r => (pushWord returnTo).bind fun _ => (push (r.flags.pushed software)).bind fun _ =>
    (readWord vector).bind fun pc => .pure fun r =>
      ((), { r with pc, flags := { r.flags with interruptDisable := true } })

theorem control (op : ControlOp) (operand : Operand) :
    Speaks fun _ _ cpu => ((), cpu.control op operand) := by
  cases op with
  | pha => exact .given fun r => push r.a
  | php => exact .given fun r => push (r.flags.pushed true)
  | pla => exact pop.bind fun v => .pure fun r => ((), r.setA v)
  | plp => exact pop.bind fun v => .pure fun r => ((), { r with flags := .pulled v })
  | jmp => exact .pure fun r => ((), { r with pc := operand.addr?.getD r.pc })
  | jsr =>
    exact .given fun r => (pushWord (r.pc - 1)).bind fun _ => .pure fun r =>
      ((), { r with pc := operand.addr?.getD r.pc })
  | rts => exact popWord.bind fun w => .pure fun r => ((), { r with pc := w + 1 })
  | rti =>
    exact pop.bind fun v => popWord.bind fun w => .pure fun r =>
      ((), { r with flags := .pulled v, pc := w })
  | brk => exact .given fun r => enter (r.pc + 1) true irqVector

/-- What a branch does to the registers, and the cycles that it adds. -/
def branched (op : BranchOp) (operand : Operand) (r : Registers) : Nat × Registers :=
  match op.taken r.flags, operand.addr? with
  | true, some target => (if operand.crossed then 2 else 1, { r with pc := target })
  | _, _ => (0, r)

theorem branch (op : BranchOp) (operand : Operand) :
    Speaks fun _ _ cpu => cpu.branch op operand := by
  refine (pure (branched op operand)).congr fun β _ cpu => ?_
  unfold Cpu.branch branched
  cases op.taken cpu.flags with
  | false => rfl
  | true => cases operand.addr? <;> rfl

theorem execute (op : Operation) (operand : Operand) :
    Speaks fun _ _ cpu => cpu.execute op operand := by
  cases op with
  | read op => exact (load operand.place).bind fun v => .pure fun r => (0, op.apply r v)
  | write op =>
    exact .given fun r => (store operand.place (op.value r)).bind fun _ => .pure fun r => (0, r)
  | modify op =>
    exact (modify operand.place op).bind fun v => .pure fun r =>
      (0, { r with flags := r.flags.withZN v })
  | combined op =>
    exact (modify operand.place op.change).bind fun v => .pure fun r => (0, op.use.apply r v)
  | register op => exact .pure fun r => (0, op.apply r)
  | branch op => exact branch op operand
  | control op => exact (control op operand).bind fun _ => .pure fun r => (0, r)
  | nop => exact .pure fun r => (0, r)

theorem perform (f : Fetched) : Speaks fun _ _ cpu => cpu.perform f := by
  let length := (1 + f.instruction.mode.operandLength).toUInt16
  let page := if f.instruction.pagePenalty && f.operand.crossed then 1 else 0
  have hmoved : Speaks fun _ _ cpu => ((), cpu.onRegisters fun r => { r with pc := r.pc + length }) :=
    .pure fun r => ((), { r with pc := r.pc + length })
  exact hmoved.bind fun _ => (execute f.instruction.operation f.operand).bind fun extra =>
    .pure fun r => (f.instruction.cycles + page + extra,
      { r with cycles := r.cycles + (f.instruction.cycles + page + extra) })

theorem readPair (low high : UInt16) :
    Speaks fun _ _ cpu => cpu.askBus (Bus.readPair · low high) :=
  (read low).bind fun lo => (read high).bind fun hi => answer (Word.ofBytes lo hi)

theorem ofByte (mode : Mode) (next : UInt16) (x y lo : UInt8) :
    Speaks fun _ _ cpu => cpu.askBus (Operand.ofByte · mode next x y lo) := by
  cases mode with
  | indirectX =>
    exact (readPair (lo + x).toUInt16 (lo + x + 1).toUInt16).bind fun addr =>
      answer (show Operand from
        { mode := .indirectX, lo, place := .memory addr, base := some (lo + x).toUInt16 })
  | indirectY =>
    exact (readPair lo.toUInt16 (lo + 1).toUInt16).bind fun base =>
      answer (Operand.indexed .indirectY lo 0 base y.toUInt16)
  | _ => exact answer _

theorem ofBytes (mode : Mode) (x y lo hi : UInt8) :
    Speaks fun _ _ cpu => cpu.askBus (Operand.ofBytes · mode x y lo hi) := by
  cases mode with
  | indirect =>
    exact (readPair (Word.ofBytes lo hi) (Word.nextInPage (Word.ofBytes lo hi))).bind fun target =>
      answer (show Operand from
        { mode := .indirect, lo, hi, place := .memory target, base := some (Word.ofBytes lo hi) })
  | _ => exact answer _

theorem resolve (mode : Mode) : Speaks fun _ _ cpu => cpu.resolve mode := by
  rcases mode.operandLength_cases with hlength | hlength | hlength
  · refine (answer { mode }).congr fun β _ cpu => ?_
    unfold Cpu.resolve Operand.resolve
    rw [hlength]
    rfl
  · have hone := given fun r => (read (r.pc + 1)).bind fun lo =>
      ofByte mode (r.pc + 1 + 1) r.x r.y lo
    refine hone.congr fun β _ cpu => ?_
    unfold Cpu.resolve Operand.resolve
    rw [hlength]
    rfl
  · have htwo := given fun r => (read (r.pc + 1)).bind fun lo => (read (r.pc + 1 + 1)).bind fun hi =>
      ofBytes mode r.x r.y lo hi
    refine htwo.congr fun β _ cpu => ?_
    unfold Cpu.resolve Operand.resolve
    rw [hlength]
    rfl

/-- What is left of a fetch once the opcode at `pc` is known. -/
def fetchAfter {β : Type} [Bus β] (pc : UInt16) (opcode : UInt8) (cpu : Cpu β) :
    Except UnknownOpcode Fetched × Cpu β :=
  match Instruction.decode opcode with
  | none => (.error ⟨pc, opcode⟩, cpu)
  | some i => (.ok ⟨opcode, i, (cpu.resolve i.mode).1⟩, (cpu.resolve i.mode).2)

theorem afterOpcode (pc : UInt16) (opcode : UInt8) :
    Speaks fun _ _ cpu => fetchAfter pc opcode cpu := by
  unfold fetchAfter
  cases Instruction.decode opcode with
  | none => exact answer _
  | some i =>
    exact (resolve i.mode).bind fun operand => answer (Except.ok (Fetched.mk opcode i operand))

theorem fetch : Speaks fun _ _ cpu => cpu.fetch :=
  given fun r => (read r.pc).bind fun opcode => afterOpcode r.pc opcode

end Speaks

/-! ### Steps over two buses -/

section Steps

variable {β γ : Type} {R : β → γ → Prop}

theorem noteInstruction_recorded [Journaled β] (r : Registers) (bus : β) (before : Array Access)
    (f : Fetched) : noteInstruction (⟨r, ⟨bus, before⟩⟩ : Cpu (Recorded β)) f =
      ⟨(noteInstruction ⟨r, bus⟩ f).toRegisters, (noteInstruction ⟨r, bus⟩ f).bus, before⟩ := by
  have hjournal : Journaled.journal (⟨bus, before⟩ : Recorded β) = Journaled.journal bus := rfl
  unfold noteInstruction
  dsimp only
  rw [hjournal]
  split <;> rfl

theorem Related.noteApart [Journaled β] [Journaled γ]
    (hb : ∀ {b : β} {c : γ} (f : Journal → Journal), R b c → R (Journaled.onJournal b f) c)
    (hc : ∀ {b : β} {c : γ} (f : Journal → Journal), R b c → R b (Journaled.onJournal c f))
    {p : Cpu β} {q : Cpu γ} (h : Related R p q) (f : Fetched) :
    Related R (p.noteInstruction f) (q.noteInstruction f) := by
  cases h with
  | mk r h =>
    unfold Cpu.noteInstruction
    dsimp only
    split <;> split
    · exact .mk r (hb _ (hc _ h))
    · exact .mk r (hb _ h)
    · exact .mk r (hc _ h)
    · exact .mk r h

variable [Bus β] [Bus γ] {bad : Access → Prop}

/-- What a part accesses, and what it does over a related bus if none of that is bad. -/
theorem Speaks.related {α : Type} {act : ∀ (β : Type) [Bus β], Cpu β → α × Cpu β} (ha : Speaks act)
    (hs : Bus.PartialSimulation R bad) (p : Cpu β) (before : Array Access) :
    ∃ made : List Access,
      act (Recorded β) ⟨p.toRegisters, p.bus, before⟩ =
        ((act β p).1, ⟨(act β p).2.toRegisters, (act β p).2.bus, before ++ made.toArray⟩) ∧
      ∀ q : Cpu γ, Related R p q → (∀ a ∈ made, ¬ bad a) →
        Alike (Related R) (act β p) (act γ q) := by
  obtain ⟨r, b⟩ := p
  obtain ⟨d, hd⟩ := ha r
  have hrecord := hd (Recorded β) ⟨b, before⟩
  rw [d.run_recorded] at hrecord
  rw [hd β b]
  refine ⟨d.accesses b, hrecord, fun q h hgood => ?_⟩
  cases h with
  | @mk _ _ c h =>
    obtain ⟨hanswer, hstate⟩ := d.run_alike hs h hgood
    rw [hd γ c, hanswer]
    exact .pair _ (.mk _ hstate)

/-- Processors with the same registers take the same step over buses that only bad accesses bring
out of step, if the step makes none. -/
theorem stepNoted_alike [Journaled β] [Journaled γ] (hs : Bus.PartialSimulation R bad)
    (hb : ∀ {b : β} {c : γ} (f : Journal → Journal), R b c → R (Journaled.onJournal b f) c)
    (hc : ∀ {b : β} {c : γ} (f : Journal → Journal), R b c → R b (Journaled.onJournal c f))
    {p : Cpu β} {q : Cpu γ} (h : Related R p q) (hgood : ∀ a ∈ p.stepAccesses, ¬ bad a) :
    Alike (Related R) p.stepNoted q.stepNoted := by
  obtain ⟨fetched, hrecord, hfetch⟩ := Speaks.fetch.related hs p #[]
  have hfetch := hfetch q h
  unfold stepAccesses stepNoted at hgood
  unfold stepNoted
  dsimp only [Recorded.start] at hrecord hgood hfetch
  rw [hrecord] at hgood
  rcases hp : p.fetch with ⟨result, p'⟩
  rcases hq : q.fetch with ⟨result', q'⟩
  rw [hp, hq] at hfetch
  rw [hp] at hgood
  cases result with
  | error e =>
    obtain ⟨hanswer, hstate⟩ := hfetch (by simpa using hgood)
    dsimp only at hanswer hstate
    subst hanswer
    exact .pair _ hstate
  | ok f =>
    dsimp only at hgood
    rw [noteInstruction_recorded] at hgood
    obtain ⟨made, hrecord', hperform⟩ :=
      (Speaks.perform f).related hs (p'.noteInstruction f) (#[] ++ fetched.toArray)
    rw [hrecord'] at hgood
    -- the record holds the accesses of the fetch before those of the instruction
    have hall : ∀ a ∈ fetched ++ made, ¬ bad a := by
      intro a ha
      refine hgood a ?_
      simpa using ha
    obtain ⟨hsame, hmet⟩ := hfetch fun a ha => hall a (List.mem_append_left made ha)
    dsimp only at hsame hmet
    subst hsame
    obtain ⟨hcycles, hdone⟩ := hperform _ (hmet.noteApart hb hc f) fun a ha =>
      hall a (List.mem_append_right fetched ha)
    dsimp only
    rw [hcycles]
    exact .pair _ hdone

end Steps

end Cpu

end Nes
