import Mathlib.Tactic.Linarith
import Nes.Proofs.Cpu.Composition
import Nes.Proofs.LittleEndian

/-!
# Shifts of long numbers

A number of several bytes is shifted by a sweep of operations over its cells, upwards to the left
and downwards to the right, with the carry between them.  The number and the carry make up one word,
with the carry above the number or below it.  A rotation finds the word the one way round and leaves
it the other way round, which is why the two rotations undo each other.
-/

namespace Nes

open LittleEndian

/-! ### One byte -/

namespace ModifyOp

/-- The bit that an operation shifts in. -/
def shiftedIn (op : ModifyOp) (carry : Bool) : Bool :=
  match op with
  | rol | ror => carry
  | _ => false

theorem left_exact {op : ModifyOp} (hop : op = .asl ∨ op = .rol) (f : Flags) (v : UInt8) :
    (op.apply f v).1.toNat + 256 * (op.apply f v).2.carry.toNat =
      2 * v.toNat + (op.shiftedIn f.carry).toNat := by
  rcases hop with rfl | rfl
  · show (v <<< 1).toNat + 256 * (testBits v 0x80).toNat = 2 * v.toNat
    revert v
    apply forall_byte
    decide +kernel
  · show ((v <<< 1) ||| bitIf f.carry 0x01).toNat + 256 * (testBits v 0x80).toNat =
      2 * v.toNat + f.carry.toNat
    revert v
    cases f.carry <;> exact forall_byte (by decide +kernel)

theorem right_exact {op : ModifyOp} (hop : op = .lsr ∨ op = .ror) (f : Flags) (v : UInt8) :
    2 * (op.apply f v).1.toNat + (op.apply f v).2.carry.toNat =
      v.toNat + 256 * (op.shiftedIn f.carry).toNat := by
  rcases hop with rfl | rfl
  · show 2 * (v >>> 1).toNat + (testBits v 0x01).toNat = v.toNat
    revert v
    apply forall_byte
    decide +kernel
  · show 2 * ((v >>> 1) ||| bitIf f.carry 0x80).toNat + (testBits v 0x01).toNat =
      v.toNat + 256 * f.carry.toNat
    revert v
    cases f.carry <;> exact forall_byte (by decide +kernel)

end ModifyOp

namespace Cpu

variable {β : Type} [Bus β]

/-! ### Sweeps -/

/-- Changes in place, one after the other. -/
def changes (cpu : Cpu β) (steps : List (ModifyOp × Operand)) : Cpu β :=
  steps.foldl (fun cpu step => (cpu.execute (.modify step.1) step.2).2) cpu

/-- An operation on the first operand and another one on each that follows. -/
def sweep (first next : ModifyOp) : List Operand → List (ModifyOp × Operand)
  | [] => []
  | operand :: operands => (first, operand) :: operands.map fun operand => (next, operand)

theorem sweep_same (op : ModifyOp) (operands : List Operand) :
    sweep op op operands = operands.map fun operand => (op, operand) := by
  cases operands <;> rfl

theorem changes_sweep_cons (cpu : Cpu β) (first next : ModifyOp) (operand : Operand)
    (operands : List Operand) : cpu.changes (sweep first next (operand :: operands)) =
      (cpu.execute (.modify first) operand).2.changes (sweep next next operands) := by
  rw [sweep_same]
  rfl

/-- The bytes that the cells show. -/
def bytesAt (bus : β) (cells : List UInt16) : List UInt8 := cells.map (Bus.shown bus)

/-- The operands lie at the cells. -/
def LieAt (operands : List Operand) (cells : List UInt16) : Prop :=
  List.Forall₂ (fun operand addr => operand.addr? = some addr) operands cells

theorem LieAt.exists_addr {operands : List Operand} {cells : List UInt16}
    (h : LieAt operands cells) {operand : Operand} (hoperand : operand ∈ operands) :
    ∃ addr, operand.addr? = some addr := by
  induction h with
  | nil => cases hoperand
  | cons hfirst _ ih =>
    rcases List.mem_cons.1 hoperand with rfl | hrest
    · exact ⟨_, hfirst⟩
    · exact ih hrest

section Cells

variable {cpu : Cpu β} {operands : List Operand} {here cells : List UInt16}

theorem length_bytesAt (bus : β) (cells : List UInt16) :
    (bytesAt bus cells).length = cells.length :=
  List.length_map _

theorem bytesAt_reverse (bus : β) (cells : List UInt16) :
    bytesAt bus cells.reverse = (bytesAt bus cells).reverse :=
  List.map_reverse

theorem bytesAt_congr {bus other : β}
    (h : ∀ addr ∈ here, Bus.shown bus addr = Bus.shown other addr) :
    bytesAt bus here = bytesAt other here :=
  List.map_congr_left h

/-- A change of one cell shows there alone, and the cells are memory still. -/
theorem change_cell {operand : Operand} {addr : UInt16} (hoperand : operand.addr? = some addr)
    (haddr : addr ∈ cells) (hcells : Bus.Remembers cpu.bus cells) (op : ModifyOp) :
    let changed := op.apply cpu.flags (Bus.shown cpu.bus addr)
    let done := (cpu.execute (.modify op) operand).2
    done.flags.carry = changed.2.carry ∧ Bus.Remembers done.bus cells ∧
      ∀ other ∈ cells, Bus.shown done.bus other =
        if addr = other then changed.1 else Bus.shown cpu.bus other := by
  dsimp only
  rw [execute_modify hoperand haddr hcells]
  exact ⟨rfl, hcells.write haddr _, fun other hother => hcells.shown_write haddr hother _⟩

theorem sweep_keeps (hoperands : LieAt operands here) (hhere : here ⊆ cells)
    (hcells : Bus.Remembers cpu.bus cells) (first next : ModifyOp) :
    Bus.Remembers (cpu.changes (sweep first next operands)).bus cells ∧
      ∀ other ∈ cells, other ∉ here →
        Bus.shown (cpu.changes (sweep first next operands)).bus other =
          Bus.shown cpu.bus other := by
  induction hoperands generalizing cpu first with
  | nil => exact ⟨hcells, fun _ _ _ => rfl⟩
  | cons hoperand hoperands ih =>
    obtain ⟨haddr, hrest⟩ := List.cons_subset.1 hhere
    obtain ⟨-, hmemory, hshown⟩ := change_cell hoperand haddr hcells first
    obtain ⟨hdone, hkept⟩ := ih hrest hmemory next
    rw [changes_sweep_cons]
    refine ⟨hdone, fun other hother hnone => ?_⟩
    have hne := List.ne_of_not_mem_cons hnone
    have hnone := List.not_mem_of_not_mem_cons hnone
    exact (hkept other hother hnone).trans ((hshown other hother).trans (if_neg (Ne.symm hne)))

/-- The first change of a sweep meets its byte as it was, and so do the ones that follow theirs;
what they do does not reach the first byte again. -/
theorem sweep_first {operand : Operand} {addr : UInt16} (hoperand : operand.addr? = some addr)
    (hoperands : LieAt operands here) (hhere : addr :: here ⊆ cells)
    (hdistinct : (addr :: here).Nodup) (hcells : Bus.Remembers cpu.bus cells)
    (first next : ModifyOp) :
    let changed := first.apply cpu.flags (Bus.shown cpu.bus addr)
    let after := (cpu.execute (.modify first) operand).2
    after.flags.carry = changed.2.carry ∧ Bus.Remembers after.bus cells ∧
      bytesAt after.bus here = bytesAt cpu.bus here ∧
      Bus.shown (cpu.changes (sweep first next (operand :: operands))).bus addr = changed.1 := by
  obtain ⟨haddr, hrest⟩ := List.cons_subset.1 hhere
  obtain ⟨hnot, -⟩ := List.nodup_cons.1 hdistinct
  obtain ⟨hcarry, hmemory, hshown⟩ := change_cell hoperand haddr hcells first
  refine ⟨hcarry, hmemory, bytesAt_congr fun other hother => ?_, ?_⟩
  · have hne : addr ≠ other := fun heq => hnot (heq ▸ hother)
    rw [hshown other (hrest hother), if_neg hne]
  · rw [changes_sweep_cons, (sweep_keeps hoperands hrest hmemory next next).2 addr haddr hnot,
      hshown addr haddr, if_pos rfl]

/-! ### Either direction -/

theorem sweep_left (hoperands : LieAt operands here) (hhere : here ⊆ cells)
    (hdistinct : here.Nodup) (hcells : Bus.Remembers cpu.bus cells) {first : ModifyOp}
    (hfirst : first = .rol ∨ first = .asl ∧ here ≠ []) :
    let done := cpu.changes (sweep first .rol operands)
    number (bytesAt done.bus here) + 256 ^ here.length * done.flags.carry.toNat =
      2 * number (bytesAt cpu.bus here) + (first.shiftedIn cpu.flags.carry).toNat := by
  induction hoperands generalizing cpu first with
  | nil =>
    obtain rfl : first = .rol := hfirst.resolve_right fun h => h.2 rfl
    show 0 + 1 * cpu.flags.carry.toNat = 2 * 0 + cpu.flags.carry.toNat
    omega
  | @cons operand addr operands here hoperand hoperands ih =>
    obtain ⟨hcarry, hmemory, hrest, hbyte⟩ :=
      sweep_first hoperand hoperands hhere hdistinct hcells first .rol
    have hexact := ModifyOp.left_exact (hfirst.elim .inr fun h => .inl h.1) cpu.flags
      (Bus.shown cpu.bus addr)
    have habove := ih (List.cons_subset.1 hhere).2 (List.nodup_cons.1 hdistinct).2 hmemory
      (.inl rfl)
    dsimp only [ModifyOp.shiftedIn] at habove
    rw [hrest, ← changes_sweep_cons, hcarry] at habove
    show number (Bus.shown _ addr :: bytesAt _ here) + _ =
      2 * number (Bus.shown cpu.bus addr :: bytesAt cpu.bus here) + _
    rw [hbyte, number_cons, number_cons, List.length_cons, Nat.pow_succ, Nat.mul_right_comm]
    omega

/-- The cells are told from the highest down, as the sweep meets them. -/
theorem sweep_right (hoperands : LieAt operands here) (hhere : here ⊆ cells)
    (hdistinct : here.Nodup) (hcells : Bus.Remembers cpu.bus cells) {first : ModifyOp}
    (hfirst : first = .ror ∨ first = .lsr ∧ here ≠ []) :
    let done := cpu.changes (sweep first .ror operands)
    2 * number (bytesAt done.bus here.reverse) + done.flags.carry.toNat =
      number (bytesAt cpu.bus here.reverse) +
        256 ^ here.length * (first.shiftedIn cpu.flags.carry).toNat := by
  induction hoperands generalizing cpu first with
  | nil =>
    obtain rfl : first = .ror := hfirst.resolve_right fun h => h.2 rfl
    show 2 * 0 + cpu.flags.carry.toNat = 0 + 1 * cpu.flags.carry.toNat
    omega
  | @cons operand addr operands here hoperand hoperands ih =>
    obtain ⟨hcarry, hmemory, hrest, hbyte⟩ :=
      sweep_first hoperand hoperands hhere hdistinct hcells first .ror
    have hexact := ModifyOp.right_exact (hfirst.elim .inr fun h => .inl h.1) cpu.flags
      (Bus.shown cpu.bus addr)
    have hbelow := ih (List.cons_subset.1 hhere).2 (List.nodup_cons.1 hdistinct).2 hmemory
      (.inl rfl)
    dsimp only [ModifyOp.shiftedIn] at hbelow
    dsimp only
    rw [bytesAt_reverse, bytesAt_reverse, hrest, ← changes_sweep_cons, hcarry] at hbelow
    rw [bytesAt_reverse, bytesAt_reverse]
    show 2 * number (Bus.shown _ addr :: bytesAt _ here).reverse + _ =
      number (Bus.shown cpu.bus addr :: bytesAt cpu.bus here).reverse + _
    have hscaled := congrArg (256 ^ here.length * ·) hexact
    rw [Nat.mul_add, Nat.mul_add] at hscaled
    rw [hbyte, List.reverse_cons, List.reverse_cons, number_concat, number_concat,
      List.length_reverse, List.length_reverse, length_bytesAt, length_bytesAt, List.length_cons,
      Nat.pow_succ]
    linarith

/-! ### Whole numbers -/

/-- A sweep to the left, the lowest cell first. -/
theorem word_left (first : ModifyOp) (hoperands : LieAt operands cells) (hdistinct : cells.Nodup)
    (hcells : Bus.Remembers cpu.bus cells) (hne : cells ≠ [])
    (hfirst : first = .rol ∨ first = .asl) :
    let done := cpu.changes (sweep first .rol operands)
    Bus.Remembers done.bus cells ∧
      number (bytesAt done.bus cells) +
          256 ^ (bytesAt done.bus cells).length * done.flags.carry.toNat =
        2 * number (bytesAt cpu.bus cells) + (first.shiftedIn cpu.flags.carry).toNat := by
  have hword := sweep_left hoperands (List.Subset.refl cells) hdistinct hcells
    (hfirst.imp id fun h => ⟨h, hne⟩)
  dsimp only
  rw [length_bytesAt]
  exact ⟨(sweep_keeps hoperands (List.Subset.refl cells) hcells first .rol).1, hword⟩

/-- A sweep to the right, the highest cell first. -/
theorem word_right (first : ModifyOp) (hoperands : LieAt operands cells) (hdistinct : cells.Nodup)
    (hcells : Bus.Remembers cpu.bus cells) (hne : cells ≠ [])
    (hfirst : first = .ror ∨ first = .lsr) :
    let done := cpu.changes (sweep first .ror operands.reverse)
    Bus.Remembers done.bus cells ∧
      2 * number (bytesAt done.bus cells) + done.flags.carry.toNat =
        number (bytesAt cpu.bus cells) +
          256 ^ (bytesAt cpu.bus cells).length * (first.shiftedIn cpu.flags.carry).toNat := by
  have hdown : LieAt operands.reverse cells.reverse := List.forall₂_reverse_iff.2 hoperands
  have hhere : cells.reverse ⊆ cells := fun addr => List.mem_reverse.1
  have hword := sweep_right hdown hhere (List.nodup_reverse.2 hdistinct) hcells
    (hfirst.imp id fun h => ⟨h, mt List.reverse_eq_nil_iff.1 hne⟩)
  dsimp only
  rw [length_bytesAt]
  rw [List.reverse_reverse, List.length_reverse] at hword
  exact ⟨(sweep_keeps hdown hhere hcells first .ror).1, hword⟩

/-- The carry out of a shift to the left is the highest bit. -/
theorem decide_eq_topBit {bytes : List UInt8} (hne : bytes ≠ []) (carry : Bool) :
    decide (256 ^ bytes.length ≤ 2 * number bytes + carry.toNat) = topBit bytes := by
  have hcarry := carry.toNat_le
  rw [topBit_eq hne, size_eq hne, decide_eq_decide]
  omega

theorem number_left (first : ModifyOp) (hoperands : LieAt operands cells) (hdistinct : cells.Nodup)
    (hcells : Bus.Remembers cpu.bus cells) (hne : cells ≠ [])
    (hfirst : first = .rol ∨ first = .asl) :
    let bytes := bytesAt cpu.bus cells
    let done := cpu.changes (sweep first .rol operands)
    number (bytesAt done.bus cells) =
        (2 * number bytes + (first.shiftedIn cpu.flags.carry).toNat) % 256 ^ cells.length ∧
      done.flags.carry = topBit bytes := by
  obtain ⟨-, hword⟩ := word_left first hoperands hdistinct hcells hne hfirst
  obtain ⟨hnumber, hcarry⟩ := of_carry_above hword
  have hbytes : bytesAt cpu.bus cells ≠ [] := mt List.map_eq_nil_iff.1 hne
  have htop := decide_eq_topBit hbytes (first.shiftedIn cpu.flags.carry)
  rw [length_bytesAt] at hnumber hcarry htop
  exact ⟨hnumber, hcarry.trans htop⟩

end Cells

/-! ### Registers -/

/-- Nothing differs but the carry, zero and negative. -/
def AlikeButShifted (before after : Registers) : Prop :=
  ∃ carry zero negative,
    after = { before with flags := { before.flags with carry, zero, negative } }

theorem changes_alike {cpu : Cpu β} {steps : List (ModifyOp × Operand)}
    (hsteps : ∀ step ∈ steps, ∃ addr, step.2.addr? = some addr) :
    AlikeButShifted cpu.toRegisters (cpu.changes steps).toRegisters := by
  induction steps generalizing cpu with
  | nil => exact ⟨_, _, _, rfl⟩
  | cons step steps ih =>
    obtain ⟨⟨addr, hoperand⟩, hrest⟩ := List.forall_mem_cons.1 hsteps
    have hfirst : AlikeButShifted cpu.toRegisters
        (cpu.execute (.modify step.1) step.2).2.toRegisters := by
      unfold execute modify load
      rw [Operand.place_of_addr hoperand]
      cases step.1 <;> exact ⟨_, _, _, rfl⟩
    have hnext : AlikeButShifted (cpu.execute (.modify step.1) step.2).2.toRegisters
        (cpu.changes (step :: steps)).toRegisters := ih hrest
    obtain ⟨carry, zero, negative, hmid⟩ := hfirst
    obtain ⟨carry', zero', negative', hdone⟩ := hnext
    rw [hmid] at hdone
    exact ⟨carry', zero', negative', hdone⟩

/-- A sweep shifts a number of any length, and the carry takes the bit that leaves.  The rotations
to either side undo each other, the carry included.  Of the registers nothing changes meanwhile but
the carry, zero and negative. -/
theorem shifts_exact (cpu : Cpu β) {operands : List Operand} {cells : List UInt16}
    (hoperands : LieAt operands cells) (hne : cells ≠ []) (hdistinct : cells.Nodup)
    (hcells : Bus.Remembers cpu.bus cells) :
    let bytes := bytesAt cpu.bus cells
    let left := fun (cpu : Cpu β) first => cpu.changes (sweep first .rol operands)
    let right := fun (cpu : Cpu β) first => cpu.changes (sweep first .ror operands.reverse)
    (number (bytesAt (left cpu .rol).bus cells) =
        (2 * number bytes + cpu.flags.carry.toNat) % 256 ^ cells.length ∧
      (left cpu .rol).flags.carry = topBit bytes) ∧
    (bytesAt (right (left cpu .rol) .ror).bus cells = bytes ∧
      (right (left cpu .rol) .ror).flags.carry = cpu.flags.carry) ∧
    (bytesAt (left (right cpu .ror) .rol).bus cells = bytes ∧
      (left (right cpu .ror) .rol).flags.carry = cpu.flags.carry) ∧
    (number (bytesAt (left cpu .asl).bus cells) = 2 * number bytes % 256 ^ cells.length ∧
      (left cpu .asl).flags.carry = topBit bytes) ∧
    (number (bytesAt (right cpu .lsr).bus cells) = number bytes / 2 ∧
      (right cpu .lsr).flags.carry = (number bytes).testBit 0) ∧
    ∀ steps : List (ModifyOp × Operand), (∀ step ∈ steps, step.2 ∈ operands) →
      AlikeButShifted cpu.toRegisters (cpu.changes steps).toRegisters := by
  intro bytes left right
  have hsame : ∀ bus : β, (bytesAt bus cells).length = bytes.length :=
    fun bus => (length_bytesAt bus cells).trans (length_bytesAt cpu.bus cells).symm
  obtain ⟨hup, hrol⟩ := word_left .rol hoperands hdistinct hcells hne (.inl rfl)
  obtain ⟨hdown, hror⟩ := word_right .ror hoperands hdistinct hcells hne (.inl rfl)
  obtain ⟨-, hback⟩ := word_right .ror hoperands hdistinct hup hne (.inl rfl)
  obtain ⟨-, hforth⟩ := word_left .rol hoperands hdistinct hdown hne (.inl rfl)
  obtain ⟨-, hlsr⟩ := word_right .lsr hoperands hdistinct hcells hne (.inr rfl)
  refine ⟨?_, ?_, ?_, ?_, ?_, fun steps hsteps => changes_alike fun step hstep => ?_⟩
  · exact number_left .rol hoperands hdistinct hcells hne (.inl rfl)
  · exact eq_of_carry_below (hsame _) (hback.trans hrol)
  · exact eq_of_carry_above (hsame _) (hforth.trans hror)
  · exact number_left .asl hoperands hdistinct hcells hne (.inr rfl)
  · exact of_carry_below hlsr
  · exact hoperands.exists_addr (hsteps step hstep)

/-- `0x8001` and the carry, in two cells of which the lower byte's is reached through a mirror. -/
theorem shifts_exact_mirrored :
    let cpu : Cpu (Mainboard AudioLatch) := ⟨{ flags := { carry := true } },
      Bus.writeAll (atWrap 0x0200).bus [(0x0011, 0x01), (0x0010, 0x80)]⟩
    let operands : List Operand :=
      [{ mode := .absolute, place := .memory 0x0811 }, { mode := .zeroPage, place := .memory 0x10 }]
    let rotated := cpu.changes (sweep .rol .rol operands)
    let back := rotated.changes (sweep .ror .ror operands.reverse)
    number (bytesAt rotated.bus [0x0811, 0x0010]) = 0x0003 ∧ rotated.flags.carry = true ∧
      bytesAt back.bus [0x0811, 0x0010] = [0x01, 0x80] ∧ back.flags.carry = true := by
  intro cpu operands rotated back
  have hcells : Bus.Remembers cpu.bus [0x0811, 0x0010] :=
    cpu.bus.remembers (by simp) (by simp)
  have hbytes : bytesAt cpu.bus [0x0811, 0x0010] = [0x01, 0x80] := by decide +kernel
  obtain ⟨⟨hnumber, hcarry⟩, ⟨hback, hcarry'⟩, -⟩ := cpu.shifts_exact
    (.cons rfl (.cons rfl .nil) : LieAt operands [0x0811, 0x0010]) (by decide) (by decide) hcells
  rw [hbytes] at hnumber hcarry hback
  have hword : (2 * number [0x01, 0x80] + true.toNat) % 256 ^ 2 = 0x0003 := by decide
  have htop : topBit [0x01, 0x80] = true := by decide
  exact ⟨hnumber.trans hword, hcarry.trans htop, hback, hcarry'⟩

end Cpu

end Nes
