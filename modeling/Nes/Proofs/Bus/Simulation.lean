import Nes.Cpu.Operand

/-!
# Related buses

Two buses are related when they answer every read alike and every access leaves them related.
All that is read through one, words, pointers and operands, then comes out alike through the other.
-/

namespace Nes

/-- The same answer, and related states after it. -/
structure Alike {α β γ : Type} (R : β → γ → Prop) (p : α × β) (q : α × γ) : Prop where
  answer : p.1 = q.1
  state : R p.2 q.2

theorem Alike.pair {α β γ : Type} {R : β → γ → Prop} {b : β} {c : γ} (a : α) (h : R b c) :
    Alike R (a, b) (a, c) :=
  ⟨rfl, h⟩

theorem Alike.parts {α β γ : Type} {R : β → γ → Prop} {p : α × β} {q : α × γ} (h : Alike R p q) :
    ∃ a b c, p = (a, b) ∧ q = (a, c) ∧ R b c :=
  ⟨p.1, p.2, q.2, rfl, Prod.ext h.answer.symm rfl, h.state⟩

/-- A relation of buses that no access can tell apart or bring out of step. -/
structure Bus.Simulation {β γ : Type} [Bus β] [Bus γ] (R : β → γ → Prop) : Prop where
  read : ∀ {b : β} {c : γ} (addr : UInt16), R b c → Alike R (Bus.read b addr) (Bus.read c addr)
  write : ∀ {b : β} {c : γ} (addr : UInt16) (v : UInt8),
    R b c → R (Bus.write b addr v) (Bus.write c addr v)

namespace Bus.Simulation

variable {β γ : Type} [Bus β] [Bus γ] {R : β → γ → Prop} {b : β} {c : γ}

theorem readPair (hs : Simulation R) (low high : UInt16) (h : R b c) :
    Alike R (Bus.readPair b low high) (Bus.readPair c low high) := by
  obtain ⟨hlo, h⟩ := hs.read low h
  obtain ⟨hhi, h⟩ := hs.read high h
  unfold Bus.readPair
  dsimp only
  rw [hlo, hhi]
  exact .pair _ h

theorem ofByte (hs : Simulation R) (mode : Mode) (next : UInt16) (x y lo : UInt8) (h : R b c) :
    Alike R (Operand.ofByte b mode next x y lo) (Operand.ofByte c mode next x y lo) := by
  cases mode with
  | indirectX =>
    obtain ⟨haddr, h⟩ := hs.readPair (lo + x).toUInt16 (lo + x + 1).toUInt16 h
    simp only [Operand.ofByte, Bus.indexedIndirect, Bus.readZeroPage]
    rw [haddr]
    exact .pair _ h
  | indirectY =>
    obtain ⟨hbase, h⟩ := hs.readPair lo.toUInt16 (lo + 1).toUInt16 h
    simp only [Operand.ofByte, Bus.indirectIndexed, Bus.readZeroPage]
    rw [hbase]
    exact .pair _ h
  | _ => exact .pair _ h

theorem ofBytes (hs : Simulation R) (mode : Mode) (x y lo hi : UInt8) (h : R b c) :
    Alike R (Operand.ofBytes b mode x y lo hi) (Operand.ofBytes c mode x y lo hi) := by
  cases mode with
  | indirect =>
    obtain ⟨htarget, h⟩ :=
      hs.readPair (Word.ofBytes lo hi) (Word.nextInPage (Word.ofBytes lo hi)) h
    simp only [Operand.ofBytes, Bus.readInPage]
    rw [htarget]
    exact .pair _ h
  | _ => exact .pair _ h

theorem resolve (hs : Simulation R) (addr : UInt16) (x y : UInt8) (mode : Mode) (h : R b c) :
    Alike R (Operand.resolve b addr x y mode) (Operand.resolve c addr x y mode) := by
  unfold Operand.resolve
  split
  · exact .pair _ h
  · obtain ⟨hlo, h⟩ := hs.read addr h
    dsimp only
    rw [hlo]
    exact hs.ofByte mode (addr + 1) x y _ h
  · obtain ⟨hlo, h⟩ := hs.read addr h
    obtain ⟨hhi, h⟩ := hs.read (addr + 1) h
    dsimp only
    rw [hlo, hhi]
    exact hs.ofBytes mode x y _ _ h

end Bus.Simulation

end Nes
