import Nes.Proofs.Console.Accounts

/-!
# Frames

A call for a frame steps until the edge that tells of a finished frame is up.  Nothing in the loop
says that it ends.  It does because every step brings the beam at least three dots nearer to the
end of the frame, and it ends just behind the boundary because no step is worth more than 24.
-/

namespace Nes

namespace Beam

/-- The dots from here to the start of the next frame. -/
def remaining (b : Beam) : Nat := dotsPerLine * linesPerFrame - (b.scanline * dotsPerLine + b.dot)

/-- Less than a frame further on, the beam is either in the same frame, and as many dots nearer to
its end, or at the start of the next one. -/
theorem forward_cases {b later : Beam} (hb : b.Valid) (hlater : later.Valid) {d : Nat}
    (hd : d ≤ dotsPerLine) (helapsed : later.elapsed = b.elapsed + d) :
    (later.frames = b.frames ∧ later.remaining + d = b.remaining) ∨
      (later.frames = b.frames + 1 ∧ later.scanline = 0 ∧ later.dot + b.remaining = d) := by
  simp only [Valid, elapsed, remaining, linesPerFrame, dotsPerLine] at *
  obtain ⟨hline, hdot⟩ := hb
  obtain ⟨hline', hdot'⟩ := hlater
  have hframes : later.frames = b.frames ∨ later.frames = b.frames + 1 := by omega
  rcases hframes with hsame | hnext
  · rw [hsame] at helapsed
    exact .inl ⟨hsame, by omega⟩
  · rw [hnext] at helapsed
    have hfirst : later.scanline = 0 := by omega
    rw [hfirst] at helapsed
    exact .inr ⟨hnext, hfirst, by omega⟩

theorem remaining_pos {b : Beam} (h : b.Valid) : 0 < b.remaining := by
  simp only [Valid, remaining, linesPerFrame, dotsPerLine] at *
  omega

end Beam

namespace Console

/-! ### The loop -/

/-- The loop of a call for a frame, with the number of its steps: it ends with the first step that
fails or with the first after which the edge is up, and otherwise goes round again. -/
inductive FrameLoop : Console → Nat → Except UnknownOpcode Unit → Console → Prop
  | fault {c next : Console} {e : UnknownOpcode} (h : c.step = (.error e, next)) :
    FrameLoop c 1 (.error e) next
  | done {c next last : Console} {report : StepReport} (h : c.step = (.ok report, next))
    (hready : next.takeFrameReady = (true, last)) : FrameLoop c 1 (.ok ()) last
  | again {c next polled last : Console} {report : StepReport} {n : Nat}
    {result : Except UnknownOpcode Unit} (h : c.step = (.ok report, next))
    (hready : next.takeFrameReady = (false, polled)) (rest : FrameLoop polled n result last) :
    FrameLoop c (n + 1) result last

theorem FrameLoop.stepsToFrame_eq {c last : Console} {n : Nat} {result : Except UnknownOpcode Unit}
    (h : FrameLoop c n result last) {limit : Nat} (hlimit : n ≤ limit) :
    c.stepsToFrame limit = (result.map fun _ => true, last) := by
  induction h generalizing limit with
  | fault h =>
    obtain ⟨limit, rfl⟩ := Nat.exists_eq_succ_of_ne_zero (Nat.ne_of_gt hlimit)
    unfold stepsToFrame
    rw [h]
    rfl
  | done h hready =>
    obtain ⟨limit, rfl⟩ := Nat.exists_eq_succ_of_ne_zero (Nat.ne_of_gt hlimit)
    unfold stepsToFrame
    rw [h]
    dsimp only
    rw [hready]
    rfl
  | again h hready rest ih =>
    obtain ⟨limit, rfl⟩ := Nat.exists_eq_succ_of_ne_zero
      (Nat.ne_of_gt (Nat.lt_of_lt_of_le (Nat.succ_pos _) hlimit))
    unfold stepsToFrame
    rw [h]
    dsimp only
    rw [hready]
    exact ih (Nat.le_of_succ_le_succ hlimit)

/-- A loop that ends within the limit is what the call for a frame runs. -/
theorem FrameLoop.runFrame_eq {c last : Console} {n : Nat} {result : Except UnknownOpcode Unit}
    (h : FrameLoop c n result last) (hn : n ≤ Beam.dotsPerLine * Beam.linesPerFrame) :
    c.runFrame = (result, last) := by
  unfold runFrame
  rw [h.stepsToFrame_eq hn]
  cases result <;> rfl

/-! ### One step -/

/-- The farthest dot of the first line at which a frame can end. -/
def lastDot : Timing → Nat
  | .instruction => 2
  | .cycle => 23

section

variable {c next : Console} {report : StepReport}

theorem dots_bounds (h : c.step = (.ok report, next)) :
    3 ≤ c.timing.dots report.cycles ∧ c.timing.dots report.cycles ≤ lastDot c.timing + 1 := by
  obtain ⟨hran, -, -⟩ := step_ok h
  have hlow := Cpu.two_le_stepNoted_cycles hran
  have hhigh := Cpu.stepNoted_cycles_le hran
  cases c.timing with
  | instruction => exact ⟨Nat.le_refl 3, Nat.le_refl 3⟩
  | cycle =>
    show 3 ≤ report.cycles * 3 ∧ report.cycles * 3 ≤ 23 + 1
    omega

theorem edge_step (h : c.step = (.ok report, next)) (hvalid : c.cpu.bus.ppu.beam.Valid)
    (hclear : c.cpu.bus.ppu.frameReady = false) : next.cpu.bus.ppu.beam.Valid ∧
      (next.cpu.bus.ppu.frameReady = true ↔ c.frameCount < next.frameCount) := by
  have hbeam : c.afterInstruction.bus.ppu.beam = c.cpu.bus.ppu.beam :=
    congrArg Clocks.beam c.clocks_afterInstruction
  have hready : c.afterInstruction.bus.ppu.frameReady = false :=
    (congrArg Clocks.frameReady c.clocks_afterInstruction).trans hclear
  have hclocks := clocks_step_ok h
  have hbeam' : next.cpu.bus.ppu.beam =
      (c.afterInstruction.bus.ticks (c.timing.dots report.cycles)).ppu.beam :=
    congrArg Clocks.beam hclocks
  have hready' : next.cpu.bus.ppu.frameReady =
      (c.afterInstruction.bus.ticks (c.timing.dots report.cycles)).ppu.frameReady :=
    congrArg Clocks.frameReady hclocks
  obtain ⟨-, hedge⟩ := c.afterInstruction.bus.frames_ticks (c.timing.dots report.cycles)
  rw [hready, hbeam] at hedge
  unfold frameCount
  rw [hbeam', hready', hedge]
  refine ⟨Mainboard.valid_ticks _ _ ?_, by simp⟩
  rw [hbeam]
  exact hvalid

/-- A step either stays within the frame, with the edge down, or enters the next one and raises
it. -/
theorem frame_step (h : c.step = (.ok report, next)) (hvalid : c.cpu.bus.ppu.beam.Valid)
    (hclear : c.cpu.bus.ppu.frameReady = false) : next.cpu.bus.ppu.beam.Valid ∧
      (next.cpu.bus.ppu.frameReady = false ∧ next.frameCount = c.frameCount ∧
          next.cpu.bus.ppu.beam.remaining + 3 ≤ c.cpu.bus.ppu.beam.remaining ∨
        next.cpu.bus.ppu.frameReady = true ∧ next.frameCount = c.frameCount + 1 ∧
          next.cpu.bus.ppu.beam.scanline = 0 ∧ next.cpu.bus.ppu.beam.dot ≤ lastDot c.timing) := by
  obtain ⟨hvalid', hedge⟩ := edge_step h hvalid hclear
  obtain ⟨hlow, hhigh⟩ := dots_bounds h
  have hpos := Beam.remaining_pos hvalid
  have hfar : c.timing.dots report.cycles ≤ Beam.dotsPerLine := by
    have hlast : lastDot c.timing + 1 ≤ Beam.dotsPerLine := by cases c.timing <;> decide
    exact Nat.le_trans hhigh hlast
  refine ⟨hvalid', ?_⟩
  rcases Beam.forward_cases hvalid hvalid' hfar (elapsed_step_ok h) with
    ⟨hsame, hnearer⟩ | ⟨hnext, hline, hdot⟩
  · have hframe : next.frameCount = c.frameCount := hsame
    have hdown : next.cpu.bus.ppu.frameReady = false := by
      rw [Bool.eq_false_iff, ne_eq, hedge, hframe]
      exact Nat.lt_irrefl _
    exact .inl ⟨hdown, hframe, by omega⟩
  · have hframe : next.frameCount = c.frameCount + 1 := hnext
    have hup : next.cpu.bus.ppu.frameReady = true := by
      rw [hedge, hframe]
      exact Nat.lt_succ_self _
    exact .inr ⟨hup, hframe, hline, by omega⟩

theorem takeFrameReady_clear (h : c.cpu.bus.ppu.frameReady = false) :
    c.takeFrameReady = (false, c) := by
  obtain ⟨⟨r, m⟩, timing⟩ := c
  unfold takeFrameReady askBus Cpu.askBus Mainboard.takeFrameReady Mainboard.askPpu
    Ppu.takeFrameReady
  dsimp only at h ⊢
  rw [if_neg (Bool.eq_false_iff.1 h)]

theorem takeFrameReady_set (h : c.cpu.bus.ppu.frameReady = true) : ∃ last,
    c.takeFrameReady = (true, last) ∧ last.timing = c.timing ∧
      last.cpu.bus.clocks = { c.cpu.bus.clocks with frameReady := false } := by
  obtain ⟨⟨r, m⟩, timing⟩ := c
  unfold takeFrameReady askBus Cpu.askBus Mainboard.takeFrameReady Mainboard.askPpu
    Ppu.takeFrameReady
  dsimp only at h ⊢
  rw [if_pos h]
  exact ⟨_, rfl, rfl, rfl⟩

end

/-! ### The whole loop -/

/-- Where a call for a frame leaves the console: at the start of the next frame, or in the frame
where it was when a step failed. -/
structure EndsFrame (c : Console) (result : Except UnknownOpcode Unit) (last : Console) : Prop where
  timing : last.timing = c.timing
  valid : last.cpu.bus.ppu.beam.Valid
  clear : last.cpu.bus.ppu.frameReady = false
  fault : ∀ e, result = .error e → last.frameCount = c.frameCount
  done : result = .ok () → last.frameCount = c.frameCount + 1 ∧
    last.cpu.bus.ppu.beam.scanline = 0 ∧ last.cpu.bus.ppu.beam.dot ≤ lastDot c.timing

section

variable {c next : Console} {report : StepReport}

theorem endsFrame_of_fault {e : UnknownOpcode} (h : c.step = (.error e, next))
    (hvalid : c.cpu.bus.ppu.beam.Valid) (hclear : c.cpu.bus.ppu.frameReady = false) :
    EndsFrame c (.error e) next := by
  have hclocks := clocks_step_error h
  have hbeam : next.cpu.bus.ppu.beam = c.cpu.bus.ppu.beam := congrArg Clocks.beam hclocks
  constructor
  · exact timing_of_step h
  · rw [hbeam]
    exact hvalid
  · exact (congrArg Clocks.frameReady hclocks).trans hclear
  · intro e' _
    unfold frameCount
    rw [hbeam]
  · intro hok
    cases hok

theorem endsFrame_of_done {last : Console} (h : c.step = (.ok report, next))
    (hvalid : next.cpu.bus.ppu.beam.Valid) (hframe : next.frameCount = c.frameCount + 1)
    (hline : next.cpu.bus.ppu.beam.scanline = 0)
    (hdot : next.cpu.bus.ppu.beam.dot ≤ lastDot c.timing) (htiming : last.timing = next.timing)
    (hclocks : last.cpu.bus.clocks = { next.cpu.bus.clocks with frameReady := false }) :
    EndsFrame c (.ok ()) last := by
  have hbeam : last.cpu.bus.ppu.beam = next.cpu.bus.ppu.beam := congrArg Clocks.beam hclocks
  constructor
  · exact htiming.trans (timing_of_step h)
  · rw [hbeam]
    exact hvalid
  · exact congrArg Clocks.frameReady hclocks
  · intro e hfault
    cases hfault
  · intro _
    rw [hbeam]
    exact ⟨(congrArg Beam.frames hbeam).trans hframe, hline, hdot⟩

theorem EndsFrame.again {result : Except UnknownOpcode Unit} {last : Console}
    (h : c.step = (.ok report, next)) (hframe : next.frameCount = c.frameCount)
    (hends : EndsFrame next result last) : EndsFrame c result last := by
  have htiming : next.timing = c.timing := timing_of_step h
  obtain ⟨hlast, hvalid, hclear, hfault, hdone⟩ := hends
  rw [hframe, htiming] at hdone
  rw [hframe] at hfault
  exact ⟨hlast.trans htiming, hvalid, hclear, hfault, hdone⟩

end

/-- Whoever has at most `3 * n` dots to go is there within `n` steps. -/
theorem exists_frameLoop (n : Nat) {c : Console} (hvalid : c.cpu.bus.ppu.beam.Valid)
    (hclear : c.cpu.bus.ppu.frameReady = false) (hn : c.cpu.bus.ppu.beam.remaining ≤ 3 * n) :
    ∃ k ≤ n, ∃ result last, FrameLoop c k result last ∧ EndsFrame c result last := by
  induction n generalizing c with
  | zero =>
    have hpos := Beam.remaining_pos hvalid
    omega
  | succ n ih =>
    have hone : 1 ≤ n + 1 := Nat.succ_le_succ (Nat.zero_le n)
    rcases hstep : c.step with ⟨result, next⟩
    cases result with
    | error e =>
      exact ⟨1, hone, _, next, .fault hstep, endsFrame_of_fault hstep hvalid hclear⟩
    | ok report =>
      obtain ⟨hvalid', ⟨hdown, hframe, hnearer⟩ | ⟨hup, hframe, hline, hdot⟩⟩ :=
        frame_step hstep hvalid hclear
      · obtain ⟨k, hk, result, last, hloop, hends⟩ := ih hvalid' hdown (by omega)
        exact ⟨k + 1, Nat.succ_le_succ hk, result, last,
          .again hstep (takeFrameReady_clear hdown) hloop, .again hstep hframe hends⟩
      · obtain ⟨last, hpoll, htiming, hclocks⟩ := takeFrameReady_set hup
        exact ⟨1, hone, _, last, .done hstep hpoll,
          endsFrame_of_done hstep hvalid' hframe hline hdot htiming hclocks⟩

/-- A frame takes 29781 steps at most, since three dots each make a frame. -/
theorem runFrame_ends {c : Console} (hvalid : c.cpu.bus.ppu.beam.Valid)
    (hclear : c.cpu.bus.ppu.frameReady = false) :
    (∃ n ≤ 29781, FrameLoop c n c.runFrame.1 c.runFrame.2) ∧
      EndsFrame c c.runFrame.1 c.runFrame.2 := by
  have hall : c.cpu.bus.ppu.beam.remaining ≤ 3 * 29781 :=
    Nat.le_trans (Nat.sub_le _ _) (by decide)
  obtain ⟨n, hn, result, last, hloop, hends⟩ := exists_frameLoop 29781 hvalid hclear hall
  have hrun : c.runFrame = (result, last) := hloop.runFrame_eq (Nat.le_trans hn (by decide))
  rw [hrun]
  exact ⟨⟨n, hn, hloop⟩, hends⟩

/-! ### Frame after frame -/

/-- The answers to `n` calls for a frame, and the console after them. -/
def frames (c : Console) : Nat → List (Except UnknownOpcode Unit) × Console
  | 0 => ([], c)
  | n + 1 => (c.runFrame.1 :: (c.runFrame.2.frames n).1, (c.runFrame.2.frames n).2)

theorem frameCount_frames (n : Nat) {c : Console} (hvalid : c.cpu.bus.ppu.beam.Valid)
    (hclear : c.cpu.bus.ppu.frameReady = false) : (c.frames n).2.frameCount =
      c.frameCount + (c.frames n).1.countP fun answer => answer.isOk := by
  induction n generalizing c with
  | zero => rfl
  | succ n ih =>
    obtain ⟨-, hends⟩ := runFrame_ends hvalid hclear
    have hrest := ih hends.valid hends.clear
    show (c.runFrame.2.frames n).2.frameCount = c.frameCount +
      (c.runFrame.1 :: (c.runFrame.2.frames n).1).countP _
    rw [hrest, List.countP_cons]
    cases hresult : c.runFrame.1 with
    | error e =>
      rw [hends.fault e hresult]
      rfl
    | ok answer =>
      rw [(hends.done hresult).1]
      show c.frameCount + 1 + _ = c.frameCount + (_ + 1)
      omega

/-- A call for a frame on a console whose beam is on the picture and whose edge is down ends, at
most 29781 steps later, with the edge down again: at the start of the next frame, or in the same
frame with the first step that failed.  From power on the count is that of the frames that
succeeded. -/
theorem runFrame_boundary :
    (∀ c : Console, c.cpu.bus.ppu.beam.Valid → c.cpu.bus.ppu.frameReady = false →
      (∃ n ≤ 29781, FrameLoop c n c.runFrame.1 c.runFrame.2) ∧
        EndsFrame c c.runFrame.1 c.runFrame.2) ∧
    (∀ (cartridge : Cartridge) (timing : Timing) (journal : Journal) (n : Nat),
      ((powerOn cartridge timing journal).frames n).2.frameCount =
        ((powerOn cartridge timing journal).frames n).1.countP fun answer => answer.isOk) := by
  refine ⟨fun c => runFrame_ends, ?_⟩
  intro cartridge timing journal n
  have hclocks := clocks_powerOn cartridge timing journal
  have hbeam : (powerOn cartridge timing journal).cpu.bus.ppu.beam = {} :=
    congrArg Clocks.beam hclocks
  have hclear : (powerOn cartridge timing journal).cpu.bus.ppu.frameReady = false :=
    congrArg Clocks.frameReady hclocks
  have hvalid : (powerOn cartridge timing journal).cpu.bus.ppu.beam.Valid := by
    rw [hbeam]
    exact ⟨by decide, by decide⟩
  have hcount : (powerOn cartridge timing journal).frameCount = 0 := congrArg Beam.frames hbeam
  rw [frameCount_frames n hvalid hclear, hcount, Nat.zero_add]

/-- A console at the last dot of a frame, about to run a `NOP`. -/
def atLastDot : Console where
  cpu := maskedConsole.cpu.onBus fun m => { m with ppu := { m.ppu with beam := ⟨261, 340, 5⟩ } }
  timing := .cycle

theorem atLastDot_step : atLastDot.step.1.toOption = some ⟨2, none⟩ := by
  decide +kernel

/-- The next step ends the frame, and the call with it. -/
theorem runFrame_boundary_last_dot :
    (atLastDot.cpu.bus.ppu.beam.Valid ∧ atLastDot.cpu.bus.ppu.frameReady = false) ∧
      atLastDot.runFrame.1 = .ok () ∧ atLastDot.runFrame.2.frameCount = 6 ∧
      atLastDot.runFrame.2.cpu.bus.ppu.beam.scanline = 0 := by
  have hbeam : atLastDot.cpu.bus.ppu.beam = ⟨261, 340, 5⟩ := by decide +kernel
  have hclear : atLastDot.cpu.bus.ppu.frameReady = false := by decide +kernel
  have hvalid : atLastDot.cpu.bus.ppu.beam.Valid := by
    rw [hbeam]
    exact ⟨by decide, by decide⟩
  have hframe : atLastDot.frameCount = 5 := congrArg Beam.frames hbeam
  have hstep := step_eq_of_toOption atLastDot_step
  have hok : atLastDot.runFrame.1 = .ok () := by
    obtain ⟨_, ⟨_, _, hnearer⟩ | ⟨hup, _⟩⟩ := frame_step hstep hvalid hclear
    · have hone : Beam.remaining ⟨261, 340, 5⟩ = 1 := rfl
      rw [hbeam, hone] at hnearer
      omega
    · obtain ⟨last, hpoll, _⟩ := takeFrameReady_set hup
      rw [(FrameLoop.done hstep hpoll).runFrame_eq (by decide)]
  obtain ⟨_, hends⟩ := runFrame_boundary.1 atLastDot hvalid hclear
  obtain ⟨hcount, hline, _⟩ := hends.done hok
  rw [hframe] at hcount
  exact ⟨⟨hvalid, hclear⟩, hok, hcount, hline⟩

end Console

end Nes
