import Nes.Host.Disk

/-!
# What an action does to a disk

An action on a desk is told by its value and by the disk that it leaves.  Neither depends on what
was reported or printed before, and reports and prints leave the disk alone, so actions are put
together by their disks.
-/

namespace Nes

/-- What a read tells of a disk. -/
def Disk.outcome (d : Disk) (path : String) : ReadOutcome :=
  match d.read path with
  | .ok bytes => .contents bytes
  | .error .notFound => .missing
  | .error e => .failed e.message

variable {α β : Type} {d d' d'' : Disk} {x : StateM Desk α} {f : α → StateM Desk β} {v : α} {w : β}

/-- On the disk `d` the action gives `v` and leaves the disk `d'`. -/
def Ends (d : Disk) (x : StateM Desk α) (v : α) (d' : Disk) : Prop :=
  ∀ desk : Desk, desk.disk = d → (x.run desk).1 = v ∧ (x.run desk).2.disk = d'

namespace Ends

theorem pure (d : Disk) (v : α) : Ends d (Pure.pure v) v d := by
  intro desk hdesk
  exact ⟨rfl, hdesk⟩

theorem bind (hx : Ends d x v d') (hf : Ends d' (f v) w d'') : Ends d (x >>= f) w d'' := by
  intro desk hdesk
  obtain ⟨hvalue, hdisk⟩ := hx desk hdesk
  have hrest := hf (x.run desk).2 hdisk
  rw [← hvalue] at hrest
  exact hrest

/-! ### The host's actions -/

section Host

variable {path : String} {bytes : Array UInt8}

theorem readFile (d : Disk) (path : String) :
    Ends d (Host.readFile path) (d.outcome path) d := by
  intro desk hdesk
  subst hdesk
  have hrun : (Host.readFile path : StateM Desk ReadOutcome).run desk =
      (desk.disk.outcome path, desk) := by
    simp only [Host.readFile, Disk.outcome, StateT.run_bind, StateT.run_get, pure_bind]
    cases desk.disk.read path with
    | ok bytes => rfl
    | error e => cases e <;> rfl
  rw [hrun]
  exact ⟨rfl, rfl⟩

theorem writeFile (h : d.write path bytes = .ok d') :
    Ends d (Host.writeFile path bytes) none d' := by
  intro desk hdesk
  subst hdesk
  have hrun : (Host.writeFile path bytes : StateM Desk (Option String)).run desk =
      (none, { desk with disk := d' }) := by
    simp only [Host.writeFile, StateT.run_bind, StateT.run_get, pure_bind, h]
    rfl
  rw [hrun]
  exact ⟨rfl, rfl⟩

theorem report (d : Disk) (n : Notice) : Ends d (Host.report n) () d := by
  intro desk hdesk
  exact ⟨rfl, hdesk⟩

theorem print (d : Disk) (text : String) : Ends d (Host.print text) () d := by
  intro desk hdesk
  exact ⟨rfl, hdesk⟩

theorem forM {γ : Type} (items : List γ) {g : γ → StateM Desk Unit}
    (h : ∀ item, Ends d (g item) () d) : Ends d (items.forM g) () d := by
  induction items with
  | nil => exact pure d ()
  | cons item items ih => exact (h item).bind ih

end Host

end Ends

end Nes
