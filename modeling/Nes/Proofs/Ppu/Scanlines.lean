import Nes.Proofs.Mainboard.Routing
import Nes.Proofs.Mmc3.Schedule
import Nes.Proofs.Ppu.Run

/-!
# The picture unit as the clock of an MMC3

A dot that begins a visible line clocks the board and nothing else does, so that each frame clocks
it as often as it has visible lines.  Whether anything is drawn is not asked.  The board's counter
counts these lines through the lines that are not visible.
-/

namespace Nes

/-! ### Visible lines -/

namespace Beam

theorem atVisibleLine_iff (b : Beam) :
    b.atVisibleLine = true ↔ b.dot = 0 ∧ b.scanline < 240 := by
  rw [atVisibleLine, Bool.and_eq_true, beq_iff_eq, decide_eq_true_iff]
  rfl

/-- The visible lines begun since power on, after the very first one. -/
def begun (b : Beam) : Nat := b.frames * 240 + min b.scanline 239

theorem begun_next {b : Beam} (h : b.Valid) :
    b.next.begun = b.begun + b.next.atVisibleLine.toNat := by
  obtain ⟨scanline, dot, frames⟩ := b
  obtain ⟨hline, hdot⟩ := h
  simp only [linesPerFrame, dotsPerLine] at hline hdot
  unfold next dotsPerLine linesPerFrame begun
  dsimp only
  split
  case isTrue =>
    split
    case isTrue hlast =>
      obtain rfl : scanline = 261 := by omega
      show (frames + 1) * 240 + 0 = frames * 240 + 239 + 1
      omega
    case isFalse =>
      by_cases hvisible : scanline + 1 < 240
      · simp [atVisibleLine, visibleLines, hvisible]
        omega
      · simp [atVisibleLine, visibleLines, hvisible]
        omega
  case isFalse => rfl

theorem begun_of_frame {b c : Beam} (hb : b.Valid) (hc : c.Valid)
    (h : c.elapsed = b.elapsed + 89342) : c.begun = b.begun + 240 := by
  simp only [Valid, linesPerFrame, dotsPerLine, elapsed] at hb hc h
  unfold begun
  omega

end Beam

/-! ### What reaches the board -/

namespace Ppu

/-- A dot, an access of the unit, or a processor's write to the board beside it. -/
inductive Event
  | step
  | readRegister (number : UInt8)
  | writeRegister (number b : UInt8)
  | takeNmi
  | takeFrameReady
  | cpuWrite (addr : UInt16) (v : UInt8)
deriving DecidableEq, Repr

namespace Event

def op : Event → Op
  | step => .step
  | readRegister number => .readRegister number
  | writeRegister number b => .writeRegister number b
  | takeNmi => .takeNmi
  | takeFrameReady => .takeFrameReady
  | cpuWrite addr v => .onBoard fun board => board.cpuWrite addr v

/-- The event is a dot with which a visible line begins. -/
def arrives (ppu : Ppu) : Event → Bool
  | step => ppu.beam.next.atVisibleLine
  | _ => false

/-- What the event makes an MMC3 do. -/
def onMmc3? (ppu : Ppu) : Event → Option Mmc3.Op
  | step => if ppu.beam.next.atVisibleLine then some .clock else none
  | writeRegister number b =>
    if number &&& 7 = 7 ∧ ppu.dataAddr < 0x2000 then some (.ppuWrite ppu.dataAddr b) else none
  | cpuWrite addr v => if 0x6000 ≤ addr then some (.cpuWrite addr v) else none
  | _ => none

variable {ppu : Ppu} {event : Event}

theorem arrives_iff : event.arrives ppu = true ↔
    event = .step ∧ ppu.beam.next.dot = 0 ∧ ppu.beam.next.scanline < 240 := by
  cases event with
  | step => rw [arrives, Beam.atVisibleLine_iff, and_iff_right rfl]
  | _ => simp [arrives]

theorem onMmc3_clock_iff : event.onMmc3? ppu = some .clock ↔ event.arrives ppu = true := by
  cases event <;> simp [onMmc3?, arrives]

end Event

theorem board_apply (ppu : Ppu) (b : Mmc3) (event : Event) :
    (apply (ppu, .mmc3 b) event.op).2 = .mmc3 ((event.onMmc3? ppu).elim b b.apply) := by
  cases event with
  | step =>
    show (if (ppu.tick (.mmc3 b)).beam.atVisibleLine then Board.mmc3 b.clockScanline
      else .mmc3 b) = _
    rw [beam_tick, Event.onMmc3?]
    split <;> rfl
  | writeRegister number v =>
    show (ppu.writeRegister (.mmc3 b) number v).2 = _
    rw [board_writeRegister, Event.onMmc3?]
    split
    case isTrue hdata => exact if_pos hdata.2
    case isFalse => rfl
  | cpuWrite addr v =>
    show (Board.mmc3 b).cpuWrite addr v = _
    unfold Board.cpuWrite
    rw [Event.onMmc3?]
    split
    case isTrue hlow => rw [if_neg (UInt16.not_le.2 hlow)]; rfl
    case isFalse hhigh => rw [if_pos (UInt16.not_lt.1 hhigh)]; rfl
  | _ => rfl

/-! ### Runs -/

def after (s : Picture) (events : List Event) : Picture := run s (events.map Event.op)

def reached (s : Picture) : List Event → List Mmc3.Op
  | [] => []
  | event :: events => (event.onMmc3? s.1).toList ++ reached (apply s event.op) events

def arrivals (s : Picture) : List Event → Nat
  | [] => 0
  | event :: events => (event.arrives s.1).toNat + arrivals (apply s event.op) events

theorem after_cons (s : Picture) (event : Event) (events : List Event) :
    after s (event :: events) = after (apply s event.op) events := rfl

theorem after_snoc (s : Picture) (events : List Event) (event : Event) :
    after s (events ++ [event]) = apply (after s events) event.op := by
  unfold after
  rw [List.map_append]
  exact run_snoc s _ _

theorem arrivals_snoc (s : Picture) (events : List Event) (event : Event) :
    arrivals s (events ++ [event]) =
      arrivals s events + (event.arrives (after s events).1).toNat := by
  induction events generalizing s with
  | nil => exact Nat.add_comm _ _
  | cons first events ih =>
    rw [List.cons_append, arrivals, ih, arrivals, after_cons, Nat.add_assoc]

theorem board_after (ppu : Ppu) (b : Mmc3) (events : List Event) :
    (after (ppu, .mmc3 b) events).2 = .mmc3 (b.run (reached (ppu, .mmc3 b) events)) := by
  induction events generalizing ppu b with
  | nil => rfl
  | cons event events ih =>
    have hboard := board_apply ppu b event
    rw [after_cons, reached, Mmc3.run_append]
    generalize apply (ppu, .mmc3 b) event.op = next at hboard ⊢
    obtain ⟨nextPpu, nextBoard⟩ := next
    obtain rfl : nextBoard = _ := hboard
    rw [ih]
    cases event.onMmc3? ppu <;> rfl

theorem count_clock_reached (s : Picture) (events : List Event) :
    (reached s events).count .clock = arrivals s events := by
  induction events generalizing s with
  | nil => rfl
  | cons event events ih =>
    rw [reached, arrivals, List.count_append, ih]
    congr 1
    cases harrives : event.arrives s.1 with
    | true =>
      rw [Event.onMmc3_clock_iff.2 harrives]
      rfl
    | false =>
      cases honMmc3 : event.onMmc3? s.1 with
      | none => rfl
      | some op =>
        have hother : op ≠ .clock := by
          rintro rfl
          rw [Event.onMmc3_clock_iff.1 honMmc3] at harrives
          cases harrives
        exact List.count_eq_zero.2 fun hmem => hother (List.mem_singleton.1 hmem).symm

theorem begun_after (s : Picture) (events : List Event) (h : s.1.beam.Valid) :
    (after s events).1.beam.begun = s.1.beam.begun + arrivals s events := by
  induction events generalizing s with
  | nil => exact (Nat.add_zero _).symm
  | cons event events ih =>
    have hbegun : (apply s event.op).1.beam.begun =
        s.1.beam.begun + (event.arrives s.1).toNat := by
      cases event with
      | step =>
        show (apply s .step).1.beam.begun = _
        rw [beam_apply_step, Beam.begun_next h]
        rfl
      | _ =>
        rw [beam_apply_other s rfl]
        exact (Nat.add_zero _).symm
    rw [after_cons, ih _ (valid_apply s event.op h), arrivals, hbegun, Nat.add_assoc]

theorem elapsed_after (s : Picture) (events : List Event) :
    (after s events).1.beam.elapsed = s.1.beam.elapsed + events.count .step := by
  induction events generalizing s with
  | nil => exact (Nat.add_zero _).symm
  | cons event events ih =>
    rw [after_cons, ih]
    cases event with
    | step =>
      show (apply s .step).1.beam.elapsed + _ = _
      rw [beam_apply_step, Beam.elapsed_next, List.count_cons_self]
      omega
    | _ =>
      rw [beam_apply_other s rfl, List.count_cons_of_ne (by simp)]

theorem valid_after (s : Picture) (events : List Event) (h : s.1.beam.Valid) :
    (after s events).1.beam.Valid := by
  induction events generalizing s with
  | nil => exact h
  | cons event events ih => exact ih _ (valid_apply s event.op h)

theorem arrivals_of_frame (s : Picture) (events : List Event) (h : s.1.beam.Valid)
    (hdots : events.count .step = 89342) : arrivals s events = 240 := by
  have helapsed := elapsed_after s events
  rw [hdots] at helapsed
  have hframe := Beam.begun_of_frame h (valid_after s events h) helapsed
  rw [begun_after s events h] at hframe
  exact Nat.add_left_cancel hframe

/-! ### The counter -/

/-- Writes of the processor that leave the counter's registers alone. -/
def SparesCounter (events : List Event) : Prop :=
  ∀ addr v, Event.cpuWrite addr v ∈ events → addr < 0xC000

theorem Event.clock_or_unheard {ppu : Ppu} {op : Mmc3.Op} (event : Event)
    (h : ∀ addr v, event = .cpuWrite addr v → addr < 0xC000) (hop : event.onMmc3? ppu = some op) :
    op = .clock ∨ op.signal? = none := by
  cases event with
  | step =>
    rw [onMmc3?, Option.ite_none_right_eq_some] at hop
    exact .inl (Option.some.inj hop.2).symm
  | writeRegister number v =>
    rw [onMmc3?, Option.ite_none_right_eq_some] at hop
    obtain rfl := Option.some.inj hop.2
    exact .inr rfl
  | cpuWrite addr v =>
    rw [onMmc3?, Option.ite_none_right_eq_some] at hop
    obtain rfl := Option.some.inj hop.2
    exact .inr (Mmc3.Op.signal_below (h addr v rfl) v)
  | _ => cases hop

theorem signals_reached (s : Picture) {events : List Event} (h : SparesCounter events) :
    (reached s events).filterMap Mmc3.Op.signal? = List.replicate (arrivals s events) .clock := by
  rw [← count_clock_reached]
  apply Mmc3.signals_of_clocks
  induction events generalizing s with
  | nil => exact nofun
  | cons event events ih =>
    intro op hmem
    rcases List.mem_append.1 hmem with hfirst | hrest
    · refine event.clock_or_unheard ?_ (Option.mem_toList.1 hfirst)
      rintro addr v rfl
      exact h addr v List.mem_cons_self
    · exact ih _ (fun addr v hmem => h addr v (List.mem_cons_of_mem event hmem)) op hrest

/-- A latch is set, a reload asked for and interrupts enabled, and there is none. -/
def Armed (latch : UInt8) : Board → Prop
  | .mmc3 b => b.irq = ⟨latch, b.irq.counter, true, true, false⟩
  | _ => False

theorem irqPending_after {s : Picture} {latch : UInt8} (harmed : Armed latch s.2)
    {events : List Event} (h : SparesCounter events) :
    (after s events).2.irqPending = true ↔ latch ≠ 0 ∧ latch.toNat + 1 ≤ arrivals s events := by
  obtain ⟨ppu, board⟩ := s
  cases board with
  | nrom b => cases harmed
  | uxrom b => cases harmed
  | mmc3 b =>
    have hirq : b.irq = ⟨latch, b.irq.counter, true, true, false⟩ := harmed
    have hclocked : b.irq.Clocked 0 := by
      rw [hirq]
      exact ScanlineCounter.clocked_of_asked rfl rfl
    have hlow : b.irq.pending = false := by rw [hirq]
    have hpending := (hclocked.hear_clocks hlow (arrivals (ppu, .mmc3 b) events)).2.2
    rw [board_after]
    show (b.run _).irq.pending = true ↔ _
    rw [Mmc3.irq_run, signals_reached _ h, hpending, hirq]

theorem irqPending_rises {s : Picture} {latch : UInt8} (harmed : Armed latch s.2)
    (hlatch : latch ≠ 0) {before since : List Event} {event : Event}
    (h : SparesCounter (before ++ event :: since)) :
    (after s before).2.irqPending = false ∧ (after s (before ++ [event])).2.irqPending = true ↔
      event.arrives (after s before).1 = true ∧ arrivals s before = latch.toNat := by
  have hbefore : SparesCounter before := fun addr v hmem =>
    h addr v (List.mem_append_left _ hmem)
  have hevent : SparesCounter (before ++ [event]) := by
    intro addr v hmem
    refine h addr v ?_
    rw [List.append_cons]
    exact List.mem_append_left since hmem
  rw [← Bool.not_eq_true, irqPending_after harmed hbefore, irqPending_after harmed hevent,
    arrivals_snoc, and_iff_right hlatch, and_iff_right hlatch]
  cases event.arrives (after s before).1 with
  | false => simp
  | true =>
    simp only [Bool.toNat_true, true_and]
    omega

def writing (writes : List (UInt16 × UInt8)) : List Event :=
  writes.map fun write => .cpuWrite write.1 write.2

theorem reached_writing (s : Picture) (writes : List (UInt16 × UInt8)) :
    reached s (writing writes) = (writes.filter fun write => 0x6000 ≤ write.1).map fun write =>
      .cpuWrite write.1 write.2 := by
  induction writes generalizing s with
  | nil => rfl
  | cons write writes ih =>
    show (Event.onMmc3? s.1 (.cpuWrite write.1 write.2)).toList ++ reached _ (writing writes) = _
    rw [ih, Event.onMmc3?, List.filter_cons]
    split
    case isTrue hhigh => rw [if_pos (decide_eq_true hhigh)]; rfl
    case isFalse hlow => rw [if_neg (by simpa using hlow)]; rfl

theorem armed_writing (ppu : Ppu) {b : Mmc3} (hlow : b.irq.pending = false) {latch x y : UInt8}
    {writes : List (UInt16 × UInt8)}
    (h : writes.Perm [(0xC000, latch), (0xC001, x), (0xE001, y)]) :
    Armed latch (after (ppu, .mmc3 b) (writing writes)).2 := by
  have hops : (reached (ppu, .mmc3 b) (writing writes)).Perm
      [.cpuWrite 0xC000 latch, .cpuWrite 0xC001 x, .cpuWrite 0xE001 y] := by
    rw [reached_writing]
    exact (h.filter _).map _
  have hirq := ScanlineCounter.hear_setup (hops.filterMap Mmc3.Op.signal?) b.irq
  rw [← Mmc3.irq_run, hlow] at hirq
  rw [board_after, Armed, hirq]

/-- A board is clocked by the dots that lead to the first dot of a visible line, whatever the unit
is doing, and by nothing else: 240 times in a frame's dots.  Once a latch is set, a reload asked for
and interrupts enabled, be it by three writes in any order, the line rises with the dot that begins
one line more than the latch says, with lines that are not visible in between or without. -/
theorem lines_clock_board {ppu : Ppu} (hvalid : ppu.beam.Valid) (b : Mmc3) :
    let s : Picture := (ppu, .mmc3 b)
    (∀ events, (after s events).2 = .mmc3 (b.run (reached s events)) ∧
      (reached s events).count .clock = arrivals s events ∧
      ∀ event, let next := (after s (events ++ [event])).1.beam
        (event.onMmc3? (after s events).1 = some .clock ↔ event.arrives (after s events).1 = true) ∧
        (event.arrives (after s events).1 = true ↔
          event = .step ∧ next.dot = 0 ∧ next.scanline < 240)) ∧
    (∀ before events, events.count .step = 89342 → arrivals (after s before) events = 240) ∧
    (∀ latch x y writes, b.irq.pending = false →
      writes.Perm [(0xC000, latch), (0xC001, x), (0xE001, y)] →
      Armed latch (after s (writing writes)).2) ∧
    (∀ setup latch, let started := after s setup
      latch ≠ 0 → Armed latch started.2 → ∀ events, SparesCounter events →
        ((after started events).2.irqPending = true ↔
          latch.toNat + 1 ≤ arrivals started events) ∧
        ∀ before event since, events = before ++ event :: since →
          ((after started before).2.irqPending = false ∧
              (after started (before ++ [event])).2.irqPending = true ↔
            event.arrives (after started before).1 = true ∧
              arrivals started before = latch.toNat)) := by
  intro s
  refine ⟨fun events => ⟨board_after ppu b events, count_clock_reached s events, fun event => ?_⟩,
    fun before events hdots => ?_, fun latch x y writes hlow hwrites => ?_,
    fun setup latch hlatch harmed events hspares => ⟨?_, ?_⟩⟩
  · refine ⟨Event.onMmc3_clock_iff, Event.arrives_iff.trans (and_congr_right ?_)⟩
    rintro rfl
    rw [after_snoc]
    show _ ↔ (apply (after s events) .step).1.beam.dot = 0 ∧
      (apply (after s events) .step).1.beam.scanline < 240
    rw [beam_apply_step]
  · exact arrivals_of_frame (after s before) events (valid_after s before hvalid) hdots
  · exact armed_writing ppu hlow hwrites
  · rw [irqPending_after harmed hspares, and_iff_right hlatch]
  · rintro before event since rfl
    exact irqPending_rises harmed hlatch hspares

/-- The greatest latch that a whole frame serves. -/
theorem lines_clock_board_last_line :
    let b := Mmc3.powerOn (Array.replicate 0x8000 0) ⟨Array.replicate 0x2000 0, false⟩ .horizontal
    let started := after (powerOn, .mmc3 b) (writing [(0xC000, 239), (0xC001, 0), (0xE001, 0)])
    (after started (List.replicate 89342 .step)).2.irqPending = true := by
  intro b started
  have hvalid : powerOn.beam.Valid := ⟨by decide, by decide⟩
  have hspares : SparesCounter (List.replicate 89342 .step) := by
    intro addr v hmem
    cases List.eq_of_mem_replicate hmem
  obtain ⟨-, hframe, hwriting, hcounter⟩ := lines_clock_board hvalid b
  have harmed := hwriting 239 0 0 _ rfl (List.Perm.refl _)
  have harrivals := hframe (writing [(0xC000, 239), (0xC001, 0), (0xE001, 0)])
    (List.replicate 89342 .step) List.count_replicate_self
  refine (hcounter _ 239 (by decide) harmed _ hspares).1.2 ?_
  rw [harrivals]
  decide

end Ppu

end Nes
