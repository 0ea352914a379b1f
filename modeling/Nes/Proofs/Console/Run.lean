import Nes.Console

/-!
# Runs of a console

A run is made of steps, questions whether a frame was finished, resets and changes of the
controllers.  A frame is a run of steps and questions in turn.
-/

namespace Nes.Console

/-- What is done to a console from outside. -/
inductive Act
  | step
  | poll
  | reset
  | pad (socket : Socket) (change : Controller → Controller)

def apply (c : Console) : Act → Console
  | .step => c.step.2
  | .poll => c.takeFrameReady.2
  | .reset => c.reset
  | .pad socket change =>
    { c with cpu := c.cpu.onBus fun m => m.setPad socket (change (m.pad socket)) }

def run (c : Console) (acts : List Act) : Console := acts.foldl apply c

theorem run_nil (c : Console) : c.run [] = c := rfl

theorem run_cons (c : Console) (act : Act) (acts : List Act) :
    c.run (act :: acts) = (c.apply act).run acts := rfl

theorem run_keeps {P : Console → Prop} (hact : ∀ c act, P c → P (c.apply act)) (acts : List Act)
    {c : Console} (h : P c) : P (c.run acts) := by
  induction acts generalizing c with
  | nil => exact h
  | cons act acts ih => exact ih (hact c act h)

/-! ### Frames -/

/-- The steps and questions of `stepsToFrame`. -/
def actsToFrame (c : Console) : Nat → List Act
  | 0 => []
  | limit + 1 =>
    match c.step with
    | (.error _, _) => [.step]
    | (.ok _, next) =>
      match next.takeFrameReady with
      | (true, _) => [.step, .poll]
      | (false, next) => .step :: .poll :: next.actsToFrame limit

theorem run_actsToFrame (c : Console) (limit : Nat) :
    c.run (c.actsToFrame limit) = (c.stepsToFrame limit).2 := by
  induction limit generalizing c with
  | zero => rfl
  | succ limit ih =>
    unfold actsToFrame stepsToFrame
    rcases hstep : c.step with ⟨result, next⟩
    have hnext : c.apply .step = next := congrArg Prod.snd hstep
    cases result with
    | error e => exact hnext
    | ok report =>
      rcases hpoll : next.takeFrameReady with ⟨ready, polled⟩
      have hpolled : next.apply .poll = polled := congrArg Prod.snd hpoll
      simp only [hpoll]
      cases ready with
      | true =>
        dsimp only
        rw [run_cons, hnext, run_cons, hpolled]
        rfl
      | false =>
        dsimp only
        rw [run_cons, hnext, run_cons, hpolled]
        exact ih polled

/-- The steps and questions of a frame. -/
def frameActs (c : Console) : List Act := c.actsToFrame (Beam.dotsPerLine * Beam.linesPerFrame)

theorem run_frameActs (c : Console) : c.run c.frameActs = c.runFrame.2 :=
  c.run_actsToFrame _

end Nes.Console
