import Nes.Proofs.History
import Nes.Proofs.Mmc3.Run

/-!
# The interrupt line of an MMC3

Of all that happens to a board its scanline counter sees clocks and the writes of four registers.
The line rises with a count down from one while interrupts are enabled, and it falls with the write
that disables them.  A reload that was asked for waits for the next clock.  The latch is looked at
by the clocks that load it and by no others, so that until such a clock a different latch makes no
difference.
-/

namespace Nes

/-! ### The counter by itself -/

namespace ScanlineCounter

/-- What reaches the counter. -/
inductive Signal
  | clock
  | setLatch (v : UInt8)
  | requestReload
  | disable
  | enable
deriving DecidableEq, Repr

def receive (s : ScanlineCounter) : Signal → ScanlineCounter
  | .clock => s.clock
  | .setLatch v => s.setLatch v
  | .requestReload => s.requestReload
  | .disable => s.disable
  | .enable => s.enable

/-- The next clock loads the latch. -/
def Loads (s : ScanlineCounter) : Prop := s.reload = true ∨ s.counter = 0

/-- The next clock raises the line. -/
def Raises (s : ScanlineCounter) : Prop := s.reload = false ∧ s.counter = 1 ∧ s.enabled = true

variable {s : ScanlineCounter} {signal : Signal}

theorem clock_of_loads (h : s.Loads) : s.clock = { s with counter := s.latch, reload := false } :=
  if_pos (by simpa [Loads] using h)

theorem clock_of_not_loads (h : ¬ s.Loads) : s.clock = { s with
    counter := s.counter - 1
    pending := s.pending || (s.counter == 1 && s.enabled) } :=
  if_neg (by simpa [Loads] using h)

theorem not_loads_of_raises (h : s.Raises) : ¬ s.Loads := by
  rintro (hreload | hzero)
  · rw [h.1] at hreload
    cases hreload
  · rw [h.2.1] at hzero
    cases hzero

theorem pending_clock : s.clock.pending = true ↔ s.Raises ∨ s.pending = true := by
  by_cases hloads : s.Loads
  · have hnot : ¬ s.Raises := fun hraises => not_loads_of_raises hraises hloads
    rw [clock_of_loads hloads, or_iff_right hnot]
  · have hreload : s.reload = false := Bool.eq_false_iff.2 fun h => hloads (.inl h)
    rw [clock_of_not_loads hloads]
    simp [Raises, hreload, or_comm]

theorem pending_receive : (s.receive signal).pending = true ↔
    signal = .clock ∧ s.Raises ∨ s.pending = true ∧ signal ≠ .disable := by
  cases signal with
  | clock => simp [receive, pending_clock]
  | setLatch v => simp [receive, setLatch]
  | requestReload => simp [receive, requestReload]
  | disable => simp [receive, disable]
  | enable => simp [receive, enable]

theorem reload_receive : (s.receive signal).reload = true ↔
    signal = .requestReload ∨ s.reload = true ∧ signal ≠ .clock := by
  cases signal with
  | clock =>
    by_cases hloads : s.Loads
    · simp [receive, clock_of_loads hloads]
    · have hreload : s.reload = false := Bool.eq_false_iff.2 fun h => hloads (.inl h)
      simp [receive, clock_of_not_loads hloads, hreload]
  | setLatch v => simp [receive, setLatch]
  | requestReload => simp [receive, requestReload]
  | disable => simp [receive, disable]
  | enable => simp [receive, enable]

theorem enabled_receive (h : s.enabled = true) (hkeeps : signal ≠ .disable) :
    (s.receive signal).enabled = true := by
  cases signal with
  | clock =>
    by_cases hloads : s.Loads
    · rw [receive, clock_of_loads hloads]
      exact h
    · rw [receive, clock_of_not_loads hloads]
      exact h
  | disable => exact absurd rfl hkeeps
  | enable => rfl
  | _ => exact h

/-- Another latch stays a difference of the latch alone, but for a clock that loads it. -/
theorem receive_setLatch (v : UInt8) (h : signal = .clock → ¬ s.Loads) :
    ∃ w, (s.setLatch v).receive signal = (s.receive signal).setLatch w := by
  cases signal with
  | clock =>
    have hloads : ¬ (s.setLatch v).Loads := h rfl
    refine ⟨v, ?_⟩
    rw [receive, receive, clock_of_not_loads hloads, clock_of_not_loads (h rfl)]
    rfl
  | setLatch u => exact ⟨u, rfl⟩
  | _ => exact ⟨v, rfl⟩

end ScanlineCounter

/-! ### The counter on its board -/

namespace Mmc3

open ScanlineCounter (Signal)

def Register.signal? (v : UInt8) : Register → Option Signal
  | .irqLatch => some (.setLatch v)
  | .irqReload => some .requestReload
  | .irqDisable => some .disable
  | .irqEnable => some .enable
  | _ => none

namespace Op

def signal? : Op → Option Signal
  | .cpuWrite addr v => (Register.ofAddr addr).signal? v
  | .ppuWrite _ _ => none
  | .clock => some .clock

/-- A write that asks for a reload. -/
def RequestsReload : Op → Prop
  | .cpuWrite addr _ => 0xC000 ≤ addr ∧ addr < 0xE000 ∧ addr % 2 = 1
  | _ => False

/-- A write that turns interrupts off. -/
def Acknowledges : Op → Prop
  | .cpuWrite addr _ => 0xE000 ≤ addr ∧ addr % 2 = 0
  | _ => False

theorem acknowledges_iff (op : Op) : op.Acknowledges ↔
    ∃ addr v, op = .cpuWrite addr v ∧ 0xE000 ≤ addr ∧ addr % 2 = 0 := by
  cases op <;> simp [Acknowledges]

theorem signal_clock_iff (op : Op) : op.signal? = some .clock ↔ op = .clock := by
  cases op with
  | cpuWrite addr v =>
    rw [signal?]
    cases Register.ofAddr addr <;> simp [Register.signal?]
  | ppuWrite addr v => simp [signal?]
  | clock => simp [signal?]

theorem signal_requestReload_iff (op : Op) :
    op.signal? = some .requestReload ↔ op.RequestsReload := by
  cases op with
  | cpuWrite addr v =>
    rw [signal?, RequestsReload, ← ofAddr_irqReload_iff]
    cases Register.ofAddr addr <;> simp [Register.signal?]
  | ppuWrite addr v => simp [signal?, RequestsReload]
  | clock => simp [signal?, RequestsReload]

theorem signal_disable_iff (op : Op) : op.signal? = some .disable ↔ op.Acknowledges := by
  cases op with
  | cpuWrite addr v =>
    rw [signal?, Acknowledges, ← ofAddr_irqDisable_iff]
    cases Register.ofAddr addr <;> simp [Register.signal?]
  | ppuWrite addr v => simp [signal?, Acknowledges]
  | clock => simp [signal?, Acknowledges]

/-- Below `$A000` no signal comes from a write, be it to memory or to a register. -/
theorem signal_of_lt {addr : UInt16} (h : addr < 0xA000) (v : UInt8) :
    (cpuWrite addr v).signal? = none := by
  rw [signal?]
  by_cases heven : addr % 2 = 0
  · rw [ofAddr_bankSelect h heven]
    rfl
  · rw [ofAddr_bankData h heven]
    rfl

end Op

theorem irq_apply (b : Mmc3) (op : Op) :
    (b.apply op).irq = op.signal?.elim b.irq b.irq.receive := by
  cases op with
  | cpuWrite addr v =>
    show (b.cpuWrite addr v).irq = _
    unfold cpuWrite
    split
    case isTrue hlow =>
      rw [Op.signal_of_lt (UInt16.lt_trans hlow (by decide))]
      rfl
    split
    case isTrue hram =>
      rw [Op.signal_of_lt (UInt16.lt_trans hram (by decide))]
      rfl
    case isFalse =>
      rw [Op.signal?]
      cases Register.ofAddr addr <;> rfl
  | ppuWrite addr v =>
    show (b.ppuWrite addr v).irq = _
    unfold ppuWrite
    split <;> rfl
  | clock => rfl

variable (b : Mmc3) (op : Op)

theorem pending_apply : (b.apply op).irq.pending = true ↔
    op = .clock ∧ b.irq.Raises ∨ b.irq.pending = true ∧ ¬ op.Acknowledges := by
  rw [irq_apply, ← op.signal_clock_iff, ← op.signal_disable_iff]
  cases op.signal? with
  | none => simp
  | some signal => simp [ScanlineCounter.pending_receive]

theorem reload_apply : (b.apply op).irq.reload = true ↔
    op.RequestsReload ∨ b.irq.reload = true ∧ op ≠ .clock := by
  rw [irq_apply, ← op.signal_requestReload_iff, Ne, ← op.signal_clock_iff]
  cases op.signal? with
  | none => simp
  | some signal => simp [ScanlineCounter.reload_receive]

theorem enabled_apply (h : b.irq.enabled = true) (hkeeps : ¬ op.Acknowledges) :
    (b.apply op).irq.enabled = true := by
  rw [← op.signal_disable_iff] at hkeeps
  rw [irq_apply]
  cases hsignal : op.signal? with
  | none => exact h
  | some signal => exact ScanlineCounter.enabled_receive h fun heq => hkeeps (by rw [hsignal, heq])

/-! ### Runs -/

variable (ops : List Op)

theorem enabled_of_pending_run (h : b.irq.pending = true → b.irq.enabled = true) :
    (b.run ops).irq.pending = true → (b.run ops).irq.enabled = true := by
  induction ops using List.reverseRecOn with
  | nil => exact h
  | append_singleton ops op ih =>
    rw [run_snoc, pending_apply]
    rintro (⟨rfl, hraises⟩ | ⟨hpending, hkeeps⟩)
    · exact enabled_apply _ _ hraises.2.2 id
    · exact enabled_apply _ _ (ih hpending) hkeeps

theorem pending_run (h : b.irq.pending = false) : (b.run ops).irq.pending = true ↔
    History.Since (fun before op => op = .clock ∧ (b.run before).irq.Raises)
      (fun op => ¬ op.Acknowledges) ops := by
  refine History.iff_since (fun ops => (b.run ops).irq.pending = true)
    (Bool.eq_false_iff.1 h) (fun ops op => ?_) ops
  rw [run_snoc, pending_apply]

theorem reload_run (h : b.irq.reload = false) : (b.run ops).irq.reload = true ↔
    History.Since (fun _ op => op.RequestsReload) (fun op => op ≠ .clock) ops := by
  refine History.iff_since (fun ops => (b.run ops).irq.reload = true)
    (Bool.eq_false_iff.1 h) (fun ops op => ?_) ops
  rw [run_snoc, reload_apply]

/-- As long as no clock loads the latch, a board with another latch differs in its latch alone. -/
theorem irq_run_setLatch (v : UInt8)
    (h : ∀ before after, ops = before ++ .clock :: after → ¬ (b.run before).irq.Loads) :
    ∃ w, (run { b with irq := b.irq.setLatch v } ops).irq = (b.run ops).irq.setLatch w := by
  induction ops using List.reverseRecOn with
  | nil => exact ⟨v, rfl⟩
  | append_singleton ops op ih =>
    have hinit : ∀ before after, ops = before ++ .clock :: after →
        ¬ (b.run before).irq.Loads := by
      intro before after heq
      exact h before (after ++ [op]) (by simp [heq])
    obtain ⟨w, ih⟩ := ih hinit
    rw [run_snoc, run_snoc, irq_apply, irq_apply, ih]
    cases hsignal : op.signal? with
    | none => exact ⟨w, rfl⟩
    | some signal =>
      refine ScanlineCounter.receive_setLatch w fun hclock => ?_
      rw [hclock, op.signal_clock_iff] at hsignal
      exact h ops [] (by rw [hsignal])

/-- In every run from power on the line is up only while interrupts are enabled.  It rises with a
clock that finds no reload asked for and the counter at one, and falls with the write that turns
interrupts off; it is up if the one has happened and not the other since.  A reload stays asked for
until the next clock.  A clock that finds one asked for, or the counter at zero, loads the latch and
does nothing else, and until such a clock another latch makes no difference. -/
theorem line_of_run (prg : Array UInt8) (chr : Chr) (mirroring : Mirroring) (ops : List Op) :
    let start := powerOn prg chr mirroring
    let b := start.run ops
    (b.irq.pending = true → b.irq.enabled = true) ∧
    (∀ op, b.irq.pending = false → ((b.apply op).irq.pending = true ↔
      op = .clock ∧ b.irq.reload = false ∧ b.irq.counter = 1 ∧ b.irq.enabled = true)) ∧
    (∀ op, b.irq.pending = true → ((b.apply op).irq.pending = false ↔
      ∃ addr v, op = .cpuWrite addr v ∧ 0xE000 ≤ addr ∧ addr % 2 = 0)) ∧
    (b.irq.pending = true ↔
      History.Since (fun before op => op = .clock ∧ (start.run before).irq.Raises)
        (fun op => ¬ op.Acknowledges) ops) ∧
    (b.irq.reload = true ↔
      History.Since (fun _ op => op.RequestsReload) (fun op => op ≠ .clock) ops) ∧
    (b.irq.reload = true ∨ b.irq.counter = 0 →
      (b.apply .clock).irq = { b.irq with counter := b.irq.latch, reload := false }) ∧
    (∀ v more, (∀ before after, more = before ++ .clock :: after →
        (b.run before).irq.reload = false ∧ (b.run before).irq.counter ≠ 0) →
      ∃ w, (run { b with irq := { b.irq with latch := v } } more).irq =
        { (b.run more).irq with latch := w }) := by
  intro start b
  refine ⟨enabled_of_pending_run start ops (fun h => by cases h), fun op hdown => ?_,
    fun op hup => ?_, pending_run start ops rfl, reload_run start ops rfl,
    ScanlineCounter.clock_of_loads, fun v more hquiet => ?_⟩
  · rw [pending_apply, hdown]
    simp [ScanlineCounter.Raises]
  · rw [← op.acknowledges_iff, ← Bool.not_eq_true, pending_apply, hup]
    constructor
    · intro hfalls
      by_contra hkeeps
      exact hfalls (.inr ⟨rfl, hkeeps⟩)
    · rintro hack (⟨rfl, -⟩ | ⟨-, hkeeps⟩)
      · exact hack
      · exact hkeeps hack
  · refine irq_run_setLatch b more v fun before after heq => ?_
    obtain ⟨hreload, hcounter⟩ := hquiet before after heq
    rintro (h | h)
    · rw [hreload] at h
      cases h
    · exact hcounter h

end Mmc3

end Nes
