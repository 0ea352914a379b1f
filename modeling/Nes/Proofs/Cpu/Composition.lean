import Nes.Proofs.Bus.Cells

/-!
# Operations in two halves

The undocumented operations that change a byte in place and use it at once leave what two documented
ones leave, a change and a use of the same operand.  Between the halves the documented pair has set
zero and negative by the changed byte and reads that byte again.  The one shows nowhere, since every
use sets both conditions anew and none reads them, and the other returns the same byte if the
operand's cell is memory.
-/

namespace Nes

theorem Operand.place_of_addr {operand : Operand} {addr : UInt16} (h : operand.addr? = some addr) :
    operand.place = .memory addr := by
  obtain ⟨mode, lo, hi, place, base, crossed⟩ := operand
  cases place with
  | memory other => exact congrArg Place.memory (Option.some.inj h)
  | _ => cases h

/-- No use reads zero or negative, and every use sets them. -/
theorem ReadOp.apply_withZN (op : ReadOp) (r : Registers) (f : Flags) (result v : UInt8) :
    op.apply { r with flags := f.withZN result } v = op.apply { r with flags := f } v := by
  cases op <;> rfl

namespace Cpu

section Cells

/-! ### Operations on a cell -/

variable {β : Type} [Bus β] {operand : Operand} {addr : UInt16} {cells : List UInt16}

theorem execute_write (cpu : Cpu β) (op : WriteOp) (hoperand : operand.addr? = some addr) :
    cpu.execute (.write op) operand =
      (0, ⟨cpu.toRegisters, Bus.write cpu.bus addr (op.value cpu.toRegisters)⟩) := by
  unfold execute
  rw [Operand.place_of_addr hoperand]
  rfl

variable {cpu : Cpu β} (hoperand : operand.addr? = some addr) (haddr : addr ∈ cells)
  (hcells : Bus.Remembers cpu.bus cells)

include hoperand haddr hcells

theorem execute_read (op : ReadOp) : cpu.execute (.read op) operand =
    (0, ⟨op.apply cpu.toRegisters (Bus.shown cpu.bus addr), cpu.bus⟩) := by
  unfold execute load read askBus
  rw [Operand.place_of_addr hoperand]
  dsimp only
  rw [hcells.read haddr]
  rfl

theorem modify_cell (op : ModifyOp) :
    let changed := op.apply cpu.flags (Bus.shown cpu.bus addr)
    cpu.modify operand.place op = (changed.1,
      ⟨{ cpu.toRegisters with flags := changed.2 }, Bus.write cpu.bus addr changed.1⟩) := by
  unfold modify load read askBus
  rw [Operand.place_of_addr hoperand]
  dsimp only
  rw [hcells.read haddr]
  rfl

theorem execute_modify (op : ModifyOp) :
    let changed := op.apply cpu.flags (Bus.shown cpu.bus addr)
    cpu.execute (.modify op) operand =
      (0, ⟨{ cpu.toRegisters with flags := changed.2.withZN changed.1 },
        Bus.write cpu.bus addr changed.1⟩) := by
  unfold execute
  dsimp only
  rw [modify_cell hoperand haddr hcells]
  rfl

theorem execute_combined (op : CombinedOp) :
    let changed := op.change.apply cpu.flags (Bus.shown cpu.bus addr)
    cpu.execute (.combined op) operand =
      (0, ⟨op.use.apply { cpu.toRegisters with flags := changed.2 } changed.1,
        Bus.write cpu.bus addr changed.1⟩) := by
  unfold execute
  dsimp only
  rw [modify_cell hoperand haddr hcells]
  rfl

/-! ### Both halves -/

theorem execute_halves (op : CombinedOp) : cpu.execute (.combined op) operand =
    (cpu.execute (.modify op.change) operand).2.execute (.read op.use) operand := by
  rw [execute_modify hoperand haddr hcells, execute_combined hoperand haddr hcells]
  dsimp only
  rw [execute_read hoperand haddr (hcells.write haddr _), hcells.shown_write haddr haddr,
    if_pos rfl]
  dsimp only
  rw [ReadOp.apply_withZN]

theorem execute_lax : cpu.execute (.read .lax) operand =
    (cpu.execute (.read .lda) operand).2.execute (.read .ldx) operand := by
  let loaded : Cpu β := ⟨ReadOp.lda.apply cpu.toRegisters (Bus.shown cpu.bus addr), cpu.bus⟩
  have hkept : Bus.Remembers loaded.bus cells := hcells
  have hsecond := execute_read hoperand haddr hkept .ldx
  rw [execute_read hoperand haddr hcells .lax, execute_read hoperand haddr hcells .lda]
  exact hsecond.symm

end Cells

variable {β : Type} [Bus β]

/-- Over any bus whose cell at the operand is memory, an undocumented operation takes the registers,
the conditions and the bus to where its documented halves take them. -/
theorem execute_undocumented (cpu : Cpu β) {operand : Operand} {addr : UInt16}
    (hoperand : operand.addr? = some addr) (hcell : Bus.Remembers cpu.bus [addr]) :
    let twice := fun first second => (cpu.execute first operand).2.execute second operand
    cpu.execute (.combined .dcp) operand = twice (.modify .dec) (.read .cmp) ∧
    cpu.execute (.combined .isb) operand = twice (.modify .inc) (.read .sbc) ∧
    cpu.execute (.combined .slo) operand = twice (.modify .asl) (.read .ora) ∧
    cpu.execute (.combined .rla) operand = twice (.modify .rol) (.read .and) ∧
    cpu.execute (.combined .sre) operand = twice (.modify .lsr) (.read .eor) ∧
    cpu.execute (.combined .rra) operand = twice (.modify .ror) (.read .adc) ∧
    cpu.execute (.read .lax) operand = twice (.read .lda) (.read .ldx) ∧
    (cpu.execute (.write .sax) operand).2.toRegisters = cpu.toRegisters ∧
    (cpu.execute (.write .sax) operand).2.bus = Bus.write cpu.bus addr (cpu.a &&& cpu.x) ∧
    Bus.shown (cpu.execute (.write .sax) operand).2.bus addr = cpu.a &&& cpu.x := by
  have haddr : addr ∈ [addr] := List.mem_singleton_self addr
  have hhalves := execute_halves hoperand haddr hcell
  have hstored := cpu.execute_write .sax hoperand
  refine ⟨hhalves .dcp, hhalves .isb, hhalves .slo, hhalves .rla, hhalves .sre, hhalves .rra,
    execute_lax hoperand haddr hcell, ?_⟩
  rw [hstored]
  refine ⟨rfl, rfl, ?_⟩
  exact (hcell.shown_write haddr haddr _).trans (if_pos rfl)

/-- The bit that the rotation takes out of a cell goes into the sum; the cell is reached through a
mirror. -/
theorem execute_undocumented_mirrored :
    let cpu : Cpu (Mainboard AudioLatch) :=
      ⟨{ a := 0x12, flags := {} }, Bus.write (atWrap 0x0200).bus 0x0010 0x01⟩
    let operand : Operand := { mode := .absolute, lo := 0x10, hi := 0x08, place := .memory 0x0810 }
    cpu.execute (.combined .rra) operand =
        (cpu.execute (.modify .ror) operand).2.execute (.read .adc) operand ∧
      (cpu.execute (.combined .rra) operand).2.a = 0x13 ∧
      Bus.shown (cpu.execute (.combined .rra) operand).2.bus 0x0010 = 0x00 := by
  intro cpu operand
  have hcell : Bus.Remembers cpu.bus [0x0810] :=
    cpu.bus.remembers (by simp) (by simp)
  have hoperand : operand.addr? = some 0x0810 := rfl
  obtain ⟨-, -, -, -, -, hrra, -⟩ := cpu.execute_undocumented hoperand hcell
  exact ⟨hrra, by decide +kernel, by decide +kernel⟩

end Cpu

end Nes
