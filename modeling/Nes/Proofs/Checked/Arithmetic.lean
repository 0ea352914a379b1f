import Mathlib.Data.UInt
import Nes.Memory

/-!
# Checked arithmetic

The operations that end a run when they go wrong: an index outside its array, a sum or a product
that does not fit its type, a difference below zero, a remainder by zero, a shift by all bits of a
byte.  A checked operation gives the fault in place of a result.
-/

namespace Nes

/-- What ends a run. -/
inductive Fault
  | index
  | overflow
  | underflow
  | remainder
  | shift
deriving DecidableEq, Repr

abbrev Checked := Except Fault

namespace Checked

@[simp] theorem ok_bind {α β : Type} (a : α) (f : α → Checked β) :
    ((.ok a : Checked α) >>= f) = f a := rfl

/-! ### Bytes and words -/

/-- Unsigned numbers of a fixed number of bits. -/
class FixedWidth (α : Type) extends Add α, Mul α, Sub α where
  bits : Nat
  toNat : α → Nat

instance : FixedWidth UInt8 := { bits := 8, toNat := UInt8.toNat }

instance : FixedWidth UInt16 := { bits := 16, toNat := UInt16.toNat }

section Words

variable {α : Type} [FixedWidth α]

def add (a b : α) : Checked α :=
  if FixedWidth.toNat a + FixedWidth.toNat b < 2 ^ FixedWidth.bits α then .ok (a + b)
  else .error .overflow

def mul (a b : α) : Checked α :=
  if FixedWidth.toNat a * FixedWidth.toNat b < 2 ^ FixedWidth.bits α then .ok (a * b)
  else .error .overflow

def sub (a b : α) : Checked α :=
  if FixedWidth.toNat b ≤ FixedWidth.toNat a then .ok (a - b) else .error .underflow

variable {a b : α}

theorem add_ok (h : FixedWidth.toNat a + FixedWidth.toNat b < 2 ^ FixedWidth.bits α) :
    add a b = .ok (a + b) := if_pos h

example : add (200 : UInt8) 56 = .error .overflow := rfl

theorem mul_ok (h : FixedWidth.toNat a * FixedWidth.toNat b < 2 ^ FixedWidth.bits α) :
    mul a b = .ok (a * b) := if_pos h

theorem sub_ok (h : FixedWidth.toNat b ≤ FixedWidth.toNat a) : sub a b = .ok (a - b) := if_pos h

end Words

def shl (a : UInt8) (n : Nat) : Checked UInt8 :=
  if n < 8 then .ok (a <<< UInt8.ofNat n) else .error .shift

def shr (a : UInt8) (n : Nat) : Checked UInt8 :=
  if n < 8 then .ok (a >>> UInt8.ofNat n) else .error .shift

theorem shr_ok {a : UInt8} {n : Nat} (h : n < 8) : shr a n = .ok (a >>> UInt8.ofNat n) := if_pos h

/-! ### Numbers kept in so many bits -/

section Numbers

variable {bits a b : Nat}

def addIn (bits a b : Nat) : Checked Nat :=
  if a + b < 2 ^ bits then .ok (a + b) else .error .overflow

def mulIn (bits a b : Nat) : Checked Nat :=
  if a * b < 2 ^ bits then .ok (a * b) else .error .overflow

def diff (a b : Nat) : Checked Nat := if b ≤ a then .ok (a - b) else .error .underflow

def rem (a b : Nat) : Checked Nat := if b = 0 then .error .remainder else .ok (a % b)

theorem addIn_ok (h : a + b < 2 ^ bits) : addIn bits a b = .ok (a + b) := if_pos h

theorem mulIn_ok (h : a * b < 2 ^ bits) : mulIn bits a b = .ok (a * b) := if_pos h

theorem diff_ok (h : b ≤ a) : diff a b = .ok (a - b) := if_pos h

theorem rem_ok (h : 0 < b) : rem a b = .ok (a % b) := if_neg (Nat.ne_of_gt h)

end Numbers

/-! ### Arrays -/

section Arrays

variable {α : Type} {n i : Nat}

def fetch (xs : Array α) (i : Nat) : Checked α :=
  if h : i < xs.size then .ok xs[i] else .error .index

def store (xs : Array α) (i : Nat) (a : α) : Checked (Array α) :=
  if i < xs.size then .ok (xs.setIfInBounds i a) else .error .index

def entry (xs : Vector α n) (i : Nat) : Checked α :=
  if h : i < n then .ok xs[i] else .error .index

def setEntry (xs : Vector α n) (i : Nat) (a : α) : Checked (Vector α n) :=
  if h : i < n then .ok (xs.set i a) else .error .index

theorem fetch_ok {xs : Array α} (h : i < xs.size) : fetch xs i = .ok xs[i] := dif_pos h

theorem store_ok {xs : Array α} (h : i < xs.size) (a : α) :
    store xs i a = .ok (xs.setIfInBounds i a) := if_pos h

theorem entry_ok (xs : Vector α n) (h : i < n) : entry xs i = .ok xs[i] := dif_pos h

theorem setEntry_ok (xs : Vector α n) (h : i < n) (a : α) : setEntry xs i a = .ok (xs.set i a) :=
  dif_pos h

end Arrays

/-! ### Loops -/

/-- A loop ends well if every round does, and keeps what every round keeps. -/
theorem foldlM_range {σ : Type} {f : σ → Nat → Checked σ} {P : Nat → σ → Prop} {n : Nat}
    (hround : ∀ k s, k < n → P k s → ∃ s', f s k = .ok s' ∧ P (k + 1) s') {s : σ} (h : P 0 s) :
    ∃ s', (List.range n).foldlM f s = .ok s' ∧ P n s' := by
  induction n with
  | zero => exact ⟨s, rfl, h⟩
  | succ n ih =>
    obtain ⟨s', hrun, hs'⟩ := ih fun k s hk => hround k s (Nat.lt_succ_of_lt hk)
    obtain ⟨s'', hlast, hs''⟩ := hround n s' (Nat.lt_succ_self n) hs'
    refine ⟨s'', ?_, hs''⟩
    rw [List.range_succ, List.foldlM_append, hrun, ok_bind, List.foldlM_cons, hlast, ok_bind]
    rfl

end Checked

/-! ### Memory -/

namespace Memory

variable {size : Nat} [MemorySize size]

/-- The cell of an index, which must be one of the block's own. -/
def getChecked (m : Memory size) (i : Nat) : Checked UInt8 := Checked.entry m.cells i

def setChecked (m : Memory size) (i : Nat) (b : UInt8) : Checked (Memory size) := do
  let cells ← Checked.setEntry m.cells i b
  return ⟨cells⟩

theorem getChecked_ok (m : Memory size) {addr : UInt16} {i : Nat} (h : i = addr.toNat % size) :
    m.getChecked i = .ok (m.get addr) := by
  subst h
  exact Checked.entry_ok m.cells (Nat.mod_lt _ MemorySize.pos)

theorem setChecked_ok (m : Memory size) {addr : UInt16} {i : Nat} (b : UInt8)
    (h : i = addr.toNat % size) : m.setChecked i b = .ok (m.set addr b) := by
  subst h
  unfold setChecked
  rw [Checked.setEntry_ok m.cells (Nat.mod_lt _ MemorySize.pos)]
  rfl

end Memory

end Nes
