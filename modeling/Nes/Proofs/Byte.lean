import Mathlib.Data.UInt
import Nes.Word

/-!
# Bytes one by one

A byte has 256 values, so that what holds of each of them can be decided.
-/

namespace Nes

theorem forall_byte {P : UInt8 → Prop} (h : ∀ k : Fin 256, P (UInt8.ofNat k)) (b : UInt8) :
    P b := by
  have hb := h ⟨b.toNat, b.toNat_lt⟩
  rwa [UInt8.ofNat_toNat] at hb

theorem and_one_eq (b : UInt8) : b &&& 1 = bitIf (b.toNat.testBit 0) 1 := by
  revert b
  apply forall_byte
  decide +kernel

end Nes
