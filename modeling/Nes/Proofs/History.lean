import Mathlib.Data.List.Basic
import Mathlib.Data.List.Induction

/-!
# What a latch tells of its history

A latch is set by some events and cleared by others.  That it is set says that an event of the one
kind has happened and none of the other kind since.
-/

namespace Nes.History

/-- What the last event settled, among those that settle it at all. -/
def latest {α β : Type} (settles? : α → Option β) (initial : β) (events : List α) : β :=
  (events.filterMap settles?).getLast?.getD initial

theorem latest_snoc {α β : Type} (settles? : α → Option β) (initial : β) (events : List α)
    (last : α) : latest settles? initial (events ++ [last]) =
      (settles? last).getD (latest settles? initial events) := by
  unfold latest
  rw [List.filterMap_append]
  cases h : settles? last with
  | none => simp [h]
  | some b => simp [h]

theorem latest_cons {α β : Type} (settles? : α → Option β) (initial : β) (first : α)
    (events : List α) : latest settles? initial (first :: events) =
      latest settles? ((settles? first).getD initial) events := by
  unfold latest
  cases h : settles? first with
  | none => simp [h]
  | some b => simp [h, List.getLast?_cons]

variable {α : Type} {sets : List α → α → Prop} {keeps : α → Prop}

/-- An event has happened that sets a latch, judged by all that came before it, and only events
that keep it have happened since. -/
def Since (sets : List α → α → Prop) (keeps : α → Prop) (events : List α) : Prop :=
  ∃ before event after, events = before ++ event :: after ∧ sets before event ∧
    ∀ later ∈ after, keeps later

theorem not_since_nil : ¬ Since sets keeps [] := by
  rintro ⟨before, event, after, heq, -⟩
  simp at heq

theorem since_snoc (events : List α) (last : α) : Since sets keeps (events ++ [last]) ↔
    sets events last ∨ Since sets keeps events ∧ keeps last := by
  constructor
  · rintro ⟨before, event, after, heq, hsets, hkeeps⟩
    rcases List.eq_nil_or_concat' after with rfl | ⟨init, later, rfl⟩
    · obtain ⟨rfl, hlast⟩ := List.append_inj' heq rfl
      obtain rfl := List.singleton_injective hlast
      exact .inl hsets
    · rw [← List.cons_append, ← List.append_assoc] at heq
      obtain ⟨rfl, hlast⟩ := List.append_inj' heq rfl
      obtain rfl := List.singleton_injective hlast
      refine .inr ⟨⟨before, event, init, rfl, hsets, fun e he => hkeeps e ?_⟩, hkeeps last ?_⟩
      · exact List.mem_append_left _ he
      · exact List.mem_append_right _ (List.mem_singleton_self last)
  · rintro (hsets | ⟨⟨before, event, after, rfl, hsets, hkeeps⟩, hlast⟩)
    · exact ⟨events, last, [], rfl, hsets, fun e he => absurd he List.not_mem_nil⟩
    · refine ⟨before, event, after ++ [last], by simp, hsets, fun e he => ?_⟩
      rcases List.mem_append.1 he with he | he
      · exact hkeeps e he
      · rw [List.mem_singleton.1 he]
        exact hlast

/-- A latch tells of its history if it starts clear and each event sets it or keeps it so. -/
theorem iff_since (latch : List α → Prop) (hnil : ¬ latch [])
    (hsnoc : ∀ events last, latch (events ++ [last]) ↔
      sets events last ∨ latch events ∧ keeps last) (events : List α) :
    latch events ↔ Since sets keeps events := by
  induction events using List.reverseRecOn with
  | nil => exact iff_of_false hnil not_since_nil
  | append_singleton events last ih => rw [hsnoc, since_snoc, ih]

end Nes.History
