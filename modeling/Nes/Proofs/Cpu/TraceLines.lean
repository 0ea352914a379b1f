import Mathlib
import Nes.Bus.Flat
import Nes.Cpu.Trace
import Nes.Proofs.Hex

/-!
# Trace lines are aligned and lossless

The columns before the registers have fixed widths, which their contents never exceed: the longest
operand text is that of a pointer indexed after it was read, and the addresses that are shown in two
digits wrap in page zero.  The registers therefore always start at the same place.  What a line says
can be read off it again: the opcode from its byte column, from the opcode the number of operand
bytes, and the registers from their own column.
-/

namespace Nes

/-! ### Resolved operands -/

namespace Operand

/-- The addresses that a text shows in two digits lie in page zero. -/
structure Fits (o : Operand) : Prop where
  addr : o.mode = .zeroPage ∨ o.mode = .zeroPageX ∨ o.mode = .zeroPageY → o.addr?.getD 0 < 0x100
  base : o.mode = .indirectX → o.base.getD 0 < 0x100

theorem toUInt16_lt (b : UInt8) : b.toUInt16 < 0x100 := by
  rw [UInt16.lt_iff_toNat_lt, UInt8.toNat_toUInt16]
  exact b.toNat_lt

theorem mode_resolve {β : Type} [Bus β] (bus : β) (addr : UInt16) (x y : UInt8) (mode : Mode) :
    (resolve bus addr x y mode).1.mode = mode := by
  cases mode <;> rfl

/-- Indexing in page zero and the pointers of an indexed pointer's mode wrap within the page. -/
theorem fits_resolve {β : Type} [Bus β] (bus : β) (addr : UInt16) (x y : UInt8) (mode : Mode) :
    (resolve bus addr x y mode).1.Fits := by
  cases mode with
  | zeroPage => exact ⟨fun _ => toUInt16_lt _, nofun⟩
  | zeroPageX => exact ⟨fun _ => toUInt16_lt _, nofun⟩
  | zeroPageY => exact ⟨fun _ => toUInt16_lt _, nofun⟩
  | indirectX => exact ⟨nofun, fun _ => toUInt16_lt _⟩
  | _ => exact ⟨nofun, nofun⟩

theorem length_bytes (o : Operand) : o.bytes.length = o.mode.operandLength := by
  unfold bytes
  cases o.mode <;> rfl

end Operand

namespace Trace

/-! ### Widths -/

theorem length_operandText {o : Operand} (h : o.Fits) : (operandText o).length ≤ 22 := by
  obtain ⟨haddr, hbase⟩ := h
  unfold operandText
  cases hmode : o.mode with
  | zeroPage =>
    have hshort := Hex.length_short (haddr (.inl hmode))
    simp +decide [hshort]
  | zeroPageX =>
    have hshort := Hex.length_short (haddr (.inr (.inl hmode)))
    simp +decide [hshort, Hex.length_byte]
  | zeroPageY =>
    have hshort := Hex.length_short (haddr (.inr (.inr hmode)))
    simp +decide [hshort, Hex.length_byte]
  | indirectX =>
    have hshort := Hex.length_short (hbase hmode)
    simp +decide [hshort, Hex.length_byte, Hex.length_word]
  | _ => simp +decide [Hex.length_byte, Hex.length_word]

theorem length_disassemble (operation : Operation) {o : Operand} (h : o.Fits) :
    (disassemble operation o).length ≤ 25 := by
  have htext := length_operandText h
  unfold disassemble
  rw [String.length_append, operation.length_mnemonic]
  omega

/-- The byte column as characters: the opcode, then each byte after a blank. -/
theorem toList_byteColumn (opcode : UInt8) (o : Operand) : (byteColumn opcode o).toList =
    Hex.byteChars opcode ++ o.bytes.flatMap fun b => ' ' :: Hex.byteChars b := by
  have hfold : ∀ (bytes : List UInt8) (text : String),
      (bytes.foldl (fun text b => text ++ " " ++ Hex.byte b) text).toList =
        text.toList ++ bytes.flatMap fun b => ' ' :: Hex.byteChars b := by
    intro bytes
    induction bytes with
    | nil => simp
    | cons b bytes ih =>
      intro text
      rw [List.foldl_cons, ih]
      simp [Hex.byte]
  unfold byteColumn
  rw [hfold]
  simp [Hex.byte]

theorem length_byteColumn (opcode : UInt8) (o : Operand) :
    (byteColumn opcode o).length = 2 + 3 * o.bytes.length := by
  rw [← String.length_toList, toList_byteColumn]
  simp [Hex.length_byteChars]
  omega

theorem operandLength_le (mode : Mode) : mode.operandLength ≤ 2 := by
  cases mode <;> decide

theorem length_byteColumn_padded (opcode : UInt8) (o : Operand) :
    (padRight 8 (byteColumn opcode o)).length = 8 := by
  have hbytes := o.length_bytes
  have hmode := operandLength_le o.mode
  rw [length_padRight, length_byteColumn]
  omega

/-- What stands before the registers. -/
def front (f : Fetched) (pc : UInt16) : String :=
  Hex.word pc ++ ("  " ++ (padRight 8 (byteColumn f.opcode f.operand) ++ (" " ++
    ((if f.instruction.documented then " " else "*") ++
      (padRight 31 (disassemble f.instruction.operation f.operand) ++ " ")))))

theorem line_eq (f : Fetched) (s : Snapshot) : line f s = front f s.pc ++ registerColumn s := by
  simp only [line, front, String.append_assoc]

theorem length_front {f : Fetched} (h : f.operand.Fits) (pc : UInt16) :
    (front f pc).length = 48 := by
  have htext := length_disassemble f.instruction.operation h
  have hpadded : (padRight 31 (disassemble f.instruction.operation f.operand)).length = 31 := by
    rw [length_padRight]
    omega
  have hstar : (if f.instruction.documented then " " else "*").length = 1 := by
    split <;> rfl
  unfold front
  simp only [String.length_append, Hex.length_word, length_byteColumn_padded, hstar, hpadded]
  rfl

/-! ### Reading a line back -/

theorem spaced_bytes_inj {bytes other : List UInt8} (hlen : bytes.length = other.length)
    (h : (bytes.flatMap fun b => ' ' :: Hex.byteChars b) =
      other.flatMap fun b => ' ' :: Hex.byteChars b) : bytes = other := by
  induction bytes generalizing other with
  | nil => exact (List.length_eq_zero_iff.1 hlen.symm).symm
  | cons b bytes ih =>
    cases other with
    | nil => simp at hlen
    | cons c other =>
      rw [List.flatMap_cons, List.flatMap_cons] at h
      obtain ⟨hhead, htail⟩ := List.append_inj h rfl
      have hbyte : b = c := Hex.byteChars_inj.1 (List.cons.inj hhead).2
      rw [hbyte, ih (Nat.succ.inj hlen) htail]

/-- The opcode stands first, and then it is known how many bytes follow. -/
theorem byteColumn_inj {opcode opcode' : UInt8} {o o' : Operand}
    (hmode : opcode = opcode' → o.mode = o'.mode)
    (h : padRight 8 (byteColumn opcode o) = padRight 8 (byteColumn opcode' o')) :
    opcode = opcode' ∧ o.bytes = o'.bytes := by
  have hchars := congrArg String.toList h
  simp only [padRight, String.toList_append, toList_byteColumn, List.append_assoc] at hchars
  obtain ⟨hfirst, hrest⟩ := List.append_inj hchars rfl
  have hopcode : opcode = opcode' := Hex.byteChars_inj.1 hfirst
  have hlen : o.bytes.length = o'.bytes.length := by
    rw [o.length_bytes, o'.length_bytes, hmode hopcode]
  have hcolumn : (o.bytes.flatMap fun b => ' ' :: Hex.byteChars b).length =
      (o'.bytes.flatMap fun b => ' ' :: Hex.byteChars b).length := by
    simp [Hex.length_byteChars, hlen]
  exact ⟨hopcode, spaced_bytes_inj hlen (List.append_inj hrest hcolumn).1⟩

theorem registerColumn_inj {s t : Snapshot} (h : registerColumn s = registerColumn t) :
    s.a = t.a ∧ s.x = t.x ∧ s.y = t.y ∧ s.p = t.p ∧ s.sp = t.sp ∧ s.cycles = t.cycles := by
  simpa only [registerColumn, String.append_assoc, String.append_right_inj, Hex.byte_append_inj,
    Nat.toString_eq_repr, Nat.repr_inj] using h

/-! ### Lines of instructions -/

/-- What a line is made for: a mapped opcode, whose operand is resolved on a bus in its own mode. -/
structure Entry (β : Type) where
  opcode : UInt8
  instruction : Instruction
  decoded : Instruction.decode opcode = some instruction
  bus : β
  addr : UInt16
  x : UInt8
  y : UInt8

namespace Entry

variable {β γ : Type} [Bus β] [Bus γ]

def operand (e : Entry β) : Operand := (Operand.resolve e.bus e.addr e.x e.y e.instruction.mode).1

def fetched (e : Entry β) : Fetched := ⟨e.opcode, e.instruction, e.operand⟩

theorem fits (e : Entry β) : e.operand.Fits := Operand.fits_resolve e.bus e.addr e.x e.y _

theorem mode_eq (e : Entry β) (e' : Entry γ) (h : e.opcode = e'.opcode) :
    e.operand.mode = e'.operand.mode := by
  have hdecode : some e.instruction = some e'.instruction := by
    rw [← e.decoded, ← e'.decoded, h]
  have hinstruction : e.instruction = e'.instruction := Option.some.inj hdecode
  unfold operand
  rw [Operand.mode_resolve, Operand.mode_resolve, hinstruction]

end Entry

/-- The registers start at the 48th character, after an instruction that fits its column; and of two
calls that give the same line, the registers and the bytes of the instruction were the same. -/
theorem lines_aligned_and_lossless {β γ : Type} [Bus β] [Bus γ] (e : Entry β) (e' : Entry γ)
    (s t : Snapshot) :
    (line e.fetched s).toList.drop 48 = (registerColumn s).toList ∧
    ['A', ':'] <+: (registerColumn s).toList ∧
    (disassemble e.instruction.operation e.operand).length ≤ 31 ∧
    (line e.fetched s = line e'.fetched t →
      s = t ∧ e.opcode = e'.opcode ∧ e.operand.bytes = e'.operand.bytes) := by
  have hfront : (front e.fetched s.pc).length = 48 := length_front e.fits s.pc
  have hfront' : (front e'.fetched t.pc).length = 48 := length_front e'.fits t.pc
  refine ⟨?_, ?_, ?_, ?_⟩
  · rw [line_eq, String.toList_append]
    exact List.drop_left' (by rw [String.length_toList, hfront])
  · simp [registerColumn]
  · exact Nat.le_trans (length_disassemble _ e.fits) (by decide)
  · intro h
    rw [line_eq, line_eq] at h
    obtain ⟨hbefore, hregisters⟩ := append_inj_of_length h (hfront.trans hfront'.symm)
    unfold front at hbefore
    rw [Hex.word_append_inj, String.append_right_inj] at hbefore
    obtain ⟨hpc, hrest⟩ := hbefore
    obtain ⟨hbytes, -⟩ := append_inj_of_length hrest (by
      rw [length_byteColumn_padded, length_byteColumn_padded])
    obtain ⟨ha, hx, hy, hp, hsp, hcycles⟩ := registerColumn_inj hregisters
    refine ⟨?_, byteColumn_inj (e.mode_eq e') hbytes⟩
    obtain ⟨pc, a, x, y, p, sp, cycles⟩ := s
    rw [Snapshot.mk.injEq]
    exact ⟨hpc, ha, hx, hy, hp, hsp, hcycles⟩

example : line ⟨0x4C, ⟨.control .jmp, .absolute, true⟩,
    { mode := .absolute, lo := 0xF5, hi := 0xC5, place := .memory 0xC5F5 }⟩
      ⟨0xC000, 0, 0, 0, 0x24, 0xFD, 7⟩ =
    "C000  4C F5 C5  JMP $C5F5                       A:00 X:00 Y:00 P:24 SP:FD CYC:7" := by
  cbv

/-- An `LDX` through the memory, with the byte after its opcode and all others the same. -/
def loadEntry (v x : UInt8) : Entry FlatMemory where
  opcode := 0xA6
  instruction := ⟨.read .ldx, .zeroPage, true⟩
  decoded := by decide
  bus := .filled v
  addr := 0xC001
  x := x
  y := 0

theorem operand_loadEntry (v x : UInt8) : (loadEntry v x).operand =
    { mode := .zeroPage, lo := v, place := .memory v.toUInt16 } := by
  have hread : (Memory.filled v : FlatMemory).get 0xC001 = v := Memory.get_filled v 0xC001
  show (⟨.zeroPage, (Memory.filled v : FlatMemory).get 0xC001, 0,
    .memory ((Memory.filled v : FlatMemory).get 0xC001).toUInt16, none, false⟩ : Operand) = _
  rw [hread]

/-- What the index registers held when the operand was resolved does not show in this mode; the
operand's byte does. -/
theorem lines_lossless_zeroPage :
    line (loadEntry 0xFF 1).fetched ⟨0xC000, 0, 1, 0, 0x24, 0xFD, 7⟩ =
      line (loadEntry 0xFF 2).fetched ⟨0xC000, 0, 1, 0, 0x24, 0xFD, 7⟩ ∧
    (loadEntry 0xFF 1).operand.bytes = (loadEntry 0xFF 2).operand.bytes := by
  have hsame : (loadEntry 0xFF 1).fetched = (loadEntry 0xFF 2).fetched := by
    unfold Entry.fetched
    rw [operand_loadEntry, operand_loadEntry]
    rfl
  have hline := congrArg (line · ⟨0xC000, 0, 1, 0, 0x24, 0xFD, 7⟩) hsame
  exact ⟨hline, ((lines_aligned_and_lossless _ _ _ _).2.2.2 hline).2.2⟩

end Trace

end Nes
