/-!
# Steps that may fail

What is made of several steps gives a result only if every step does.
-/

namespace Nes

variable {ε α β : Type}

theorem bind_ok {x : Except ε α} {f : α → Except ε β} {b : β} (h : x >>= f = .ok b) :
    ∃ a, x = .ok a ∧ f a = .ok b := by
  cases x with
  | error e => cases h
  | ok a => exact ⟨a, rfl, h⟩

section Fold

variable {step other : β → α → Except ε β} {items : List α} {first last : β}

theorem foldlM_mono (hstep : ∀ b a c, step b a = .ok c → other b a = .ok c)
    (h : items.foldlM step first = .ok last) : items.foldlM other first = .ok last := by
  induction items generalizing first with
  | nil => exact h
  | cons a items ih =>
    obtain ⟨next, hnext, hrest⟩ := bind_ok h
    rw [List.foldlM_cons, hstep first a next hnext]
    exact ih hrest

end Fold

end Nes
