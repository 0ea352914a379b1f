import Mathlib.Data.List.Induction
import Nes.Proofs.Mainboard.Clocks

/-!
# Runs of the picture unit

The unit is driven by dots, by accesses of its registers and by the taking of its two latches, in
any order.  The board beside it may change at any time.  Only a dot moves the beam, and the beam
stays on its lines.
-/

namespace Nes.Ppu

/-- An operation on the unit beside its board, or a change made to the board meanwhile. -/
inductive Op
  | step
  | readRegister (number : UInt8)
  | writeRegister (number b : UInt8)
  | takeNmi
  | takeFrameReady
  | onBoard (change : Board → Board)

namespace Op

def isStep : Op → Bool
  | step => true
  | _ => false

def readsStatus : Op → Bool
  | readRegister number => number &&& 7 == 2
  | _ => false

def takesNmi : Op → Bool
  | takeNmi => true
  | _ => false

theorem eq_step {op : Op} (h : op.isStep = true) : op = step := by
  cases op with
  | step => rfl
  | _ => cases h

end Op

/-- A picture unit and the board that it draws from. -/
abbrev Picture := Ppu × Board

def apply (s : Picture) : Op → Picture
  | .step => s.1.step s.2
  | .readRegister number => ((s.1.readRegister s.2 number).2, s.2)
  | .writeRegister number b => s.1.writeRegister s.2 number b
  | .takeNmi => (s.1.takeNmi.2, s.2)
  | .takeFrameReady => (s.1.takeFrameReady.2, s.2)
  | .onBoard change => (s.1, change s.2)

def run (s : Picture) (ops : List Op) : Picture := ops.foldl apply s

theorem run_append (s : Picture) (before after : List Op) :
    run s (before ++ after) = run (run s before) after := by
  simp only [run, List.foldl_append]

theorem run_snoc (s : Picture) (ops : List Op) (op : Op) :
    run s (ops ++ [op]) = apply (run s ops) op := by
  rw [run_append]
  rfl

/-! ### Latches -/

theorem takeNmi_eq (ppu : Ppu) : ppu.takeNmi.2 = { ppu with nmi := false } := by
  unfold takeNmi
  split
  case isTrue => rfl
  case isFalse hclear => rw [← Bool.eq_false_iff.2 hclear]

theorem takeFrameReady_eq (ppu : Ppu) :
    ppu.takeFrameReady.2 = { ppu with frameReady := false } := by
  unfold takeFrameReady
  split
  case isTrue => rfl
  case isFalse hclear => rw [← Bool.eq_false_iff.2 hclear]

/-! ### The beam -/

theorem beam_apply_step (s : Picture) : (apply s .step).1.beam = s.1.beam.next := s.1.beam_tick s.2

theorem beam_apply_other (s : Picture) {op : Op} (h : op.isStep = false) :
    (apply s op).1.beam = s.1.beam := by
  cases op with
  | step => cases h
  | readRegister number => exact (s.1.clocks_readRegister s.2 number).1
  | writeRegister number b => exact (s.1.clocks_writeRegister s.2 number b).1
  | takeNmi => rw [apply, takeNmi_eq]
  | takeFrameReady => rw [apply, takeFrameReady_eq]
  | onBoard change => rfl

theorem valid_apply (s : Picture) (op : Op) (h : s.1.beam.Valid) : (apply s op).1.beam.Valid := by
  cases hop : op.isStep with
  | false =>
    rw [beam_apply_other s hop]
    exact h
  | true =>
    obtain rfl := Op.eq_step hop
    rw [beam_apply_step]
    exact s.1.beam.valid_next h

theorem valid_run (board : Board) (ops : List Op) : (run (powerOn, board) ops).1.beam.Valid := by
  induction ops using List.reverseRecOn with
  | nil =>
    show (powerOn.beam).Valid
    exact ⟨by decide, by decide⟩
  | append_singleton ops op ih =>
    rw [run_snoc]
    exact valid_apply _ op ih

end Nes.Ppu
