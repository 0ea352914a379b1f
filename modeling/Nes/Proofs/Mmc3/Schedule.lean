import Nes.Proofs.Mmc3.Line

/-!
# When an MMC3 interrupts

Once a latch is set, a reload asked for and interrupts enabled, the counter runs through a period
one longer than the latch.  The first clock loads the latch and the last one of each period raises
the line, whatever the processor acknowledges in between.  A latch of zero never raises it.
-/

namespace Nes

namespace ScanlineCounter

/-! ### A period -/

theorem succ_mod_period (m latch : Nat) : (m + 1) % (latch + 1) =
    if m % (latch + 1) = latch then 0 else m % (latch + 1) + 1 := by
  have hlt : m % (latch + 1) < latch + 1 := Nat.mod_lt m latch.succ_pos
  split
  case isTrue hlast => exact Nat.succ_mod_succ_eq_zero_iff.2 hlast
  case isFalse hinside =>
    rw [← Nat.mod_add_mod, Nat.mod_eq_of_lt]
    omega

/-- The state so many clocks after a reload was asked for. -/
structure Clocked (s : ScanlineCounter) (clocks : Nat) : Prop where
  enabled : s.enabled = true
  reload : s.reload = true ↔ clocks = 0
  counter : clocks ≠ 0 → s.counter.toNat = s.latch.toNat - (clocks - 1) % (s.latch.toNat + 1)

theorem latch_clock (s : ScanlineCounter) : s.clock.latch = s.latch := by
  unfold clock
  split <;> rfl

variable {s : ScanlineCounter} {clocks : Nat}

/-- Clocks are counted from one, and the next one is the `clocks + 1`st. -/
theorem Clocked.raises_iff (h : s.Clocked clocks) :
    s.Raises ↔ s.latch ≠ 0 ∧ s.latch.toNat + 1 ∣ clocks + 1 := by
  have hlatch : s.latch ≠ 0 ↔ s.latch.toNat ≠ 0 := by simp [← UInt8.toNat_inj]
  have hone : s.counter = 1 ↔ s.counter.toNat = 1 := by simp [← UInt8.toNat_inj]
  rw [Raises, hone, hlatch, Nat.dvd_iff_mod_eq_zero, ← Bool.not_eq_true, h.reload]
  cases clocks with
  | zero =>
    rw [Nat.zero_add, succ_mod_period 0, Nat.zero_mod]
    split <;> omega
  | succ m =>
    -- the period ends with the next clock if the counter, one step back, stands at one
    rw [h.counter m.succ_ne_zero, succ_mod_period (m + 1), succ_mod_period m, h.enabled]
    have hlt := Nat.mod_lt m s.latch.toNat.succ_pos
    simp only [Nat.add_sub_cancel]
    split <;> split <;> simp <;> omega

theorem Clocked.clock (h : s.Clocked clocks) : s.clock.Clocked (clocks + 1) := by
  by_cases hloads : s.Loads
  case pos =>
    rw [clock_of_loads hloads]
    refine ⟨h.enabled, by simp, fun _ => ?_⟩
    show s.latch.toNat = s.latch.toNat - clocks % (s.latch.toNat + 1)
    cases clocks with
    | zero => rw [Nat.zero_mod, Nat.sub_zero]
    | succ m =>
      have hreload : s.reload ≠ true := fun hreload => m.succ_ne_zero (h.reload.1 hreload)
      have hzero : s.counter.toNat = 0 := by rw [hloads.resolve_left hreload, UInt8.toNat_zero]
      have hlt : m % (s.latch.toNat + 1) < s.latch.toNat + 1 := Nat.mod_lt m (Nat.succ_pos _)
      rw [h.counter m.succ_ne_zero, Nat.add_sub_cancel] at hzero
      rw [succ_mod_period, if_pos (by omega), Nat.sub_zero]
  case neg =>
    obtain ⟨hreload, hcounter⟩ := not_or.1 hloads
    obtain ⟨m, rfl⟩ := Nat.exists_eq_add_one_of_ne_zero fun hzero => hreload (h.reload.2 hzero)
    have hone : 1 ≤ s.counter.toNat := by
      rw [Nat.one_le_iff_ne_zero, ← UInt8.toNat_zero, Ne, UInt8.toNat_inj]
      exact hcounter
    have hstands := h.counter m.succ_ne_zero
    rw [Nat.add_sub_cancel] at hstands
    rw [clock_of_not_loads hloads]
    refine ⟨h.enabled, by simpa using hreload, fun _ => ?_⟩
    show (s.counter - 1).toNat = s.latch.toNat - (m + 1) % (s.latch.toNat + 1)
    rw [UInt8.toNat_sub_of_le _ _ (by simpa [UInt8.le_iff_toNat_le] using hone), hstands,
      succ_mod_period, if_neg (by omega)]
    exact Nat.sub_sub _ _ _

/-! ### Signals one after another -/

def hear (s : ScanlineCounter) (signals : List Signal) : ScanlineCounter := signals.foldl receive s

theorem hear_setup {latch : UInt8} {signals : List Signal}
    (h : signals.Perm [.setLatch latch, .requestReload, .enable]) (s : ScanlineCounter) :
    s.hear signals = { s with latch, reload := true, enabled := true } := by
  -- each signal has a field of its own, so that their order makes no difference
  have hcomm : ∀ x ∈ [Signal.setLatch latch, .requestReload, .enable],
      ∀ y ∈ [Signal.setLatch latch, .requestReload, .enable], ∀ z : ScanlineCounter,
        (z.receive x).receive y = (z.receive y).receive x := by
    simp [receive, setLatch, requestReload, enable]
  exact (h.symm.foldl_eq' hcomm s).symm

theorem clocked_of_asked (hreload : s.reload = true) (henabled : s.enabled = true) :
    s.Clocked 0 :=
  ⟨henabled, by simp [hreload], fun h => absurd rfl h⟩

theorem Clocked.hear_clocks (h : s.Clocked 0) (hlow : s.pending = false) (n : Nat) :
    let t := s.hear (List.replicate n .clock)
    t.latch = s.latch ∧ t.Clocked n ∧
      (t.pending = true ↔ s.latch ≠ 0 ∧ s.latch.toNat + 1 ≤ n) := by
  induction n with
  | zero => exact ⟨rfl, h, by simp [hear, hlow]⟩
  | succ n ih =>
    obtain ⟨hlatch, hclocked, hpending⟩ := ih
    have hsnoc : s.hear (List.replicate (n + 1) .clock) =
        (s.hear (List.replicate n .clock)).clock := by
      rw [List.replicate_succ', hear, List.foldl_append]
      rfl
    rw [hsnoc]
    refine ⟨(latch_clock _).trans hlatch, hclocked.clock, ?_⟩
    rw [pending_clock, hclocked.raises_iff, hpending, hlatch, ← and_or_left]
    refine and_congr_right fun _ => ⟨?_, fun hle => ?_⟩
    · rintro (hdvd | hle)
      · exact Nat.le_of_dvd n.succ_pos hdvd
      · exact Nat.le_succ_of_le hle
    · rcases Nat.lt_or_eq_of_le hle with hlt | heq
      · exact .inr (Nat.le_of_lt_succ hlt)
      · rw [heq]
        exact .inl (Nat.dvd_refl _)

end ScanlineCounter

namespace Mmc3

theorem irq_run (b : Mmc3) (ops : List Op) :
    (b.run ops).irq = b.irq.hear (ops.filterMap Op.signal?) := by
  induction ops generalizing b with
  | nil => rfl
  | cons op ops ih =>
    show ((b.apply op).run ops).irq = _
    rw [ih, irq_apply]
    cases hsignal : op.signal? with
    | none => rw [List.filterMap_cons_none hsignal]; rfl
    | some signal => rw [List.filterMap_cons_some hsignal]; rfl

theorem Op.signal_below {addr : UInt16} (h : addr < 0xC000) (v : UInt8) :
    (cpuWrite addr v).signal? = none := by
  by_cases hbanks : addr < 0xA000
  · exact signal_of_lt hbanks v
  · simp only [signal?, Register.ofAddr, hbanks, h, if_false, if_true]
    split <;> rfl

theorem signals_of_clocks {ops : List Op} (h : ∀ op ∈ ops, op = .clock ∨ op.signal? = none) :
    ops.filterMap Op.signal? = List.replicate (ops.count .clock) .clock := by
  induction ops with
  | nil => rfl
  | cons op ops ih =>
    have hrest := ih fun other hmem => h other (List.mem_cons_of_mem op hmem)
    rcases h op List.mem_cons_self with rfl | hnone
    · have hclock : Op.clock.signal? = some .clock := rfl
      rw [List.filterMap_cons_some hclock, List.count_cons_self, hrest]
      rfl
    · have hother : op ≠ .clock := by
        rintro rfl
        cases hnone
      rw [List.filterMap_cons_none hnone, List.count_cons_of_ne hother, hrest]

/-! ### Interrupts that are answered -/

/-- A clock, or the two writes that answer an interrupt. -/
inductive Move
  | clock
  | answer (x y : UInt8)
deriving DecidableEq, Repr

def Move.ops : Move → List Op
  | .clock => [.clock]
  | .answer x y => [.cpuWrite 0xE000 x, .cpuWrite 0xE001 y]

def make (b : Mmc3) (move : Move) : Mmc3 := b.run move.ops

/-- No interrupt comes while the one before it is unanswered. -/
def Answered (b : Mmc3) : List Move → Prop
  | [] => True
  | move :: moves =>
    (move = .clock → b.irq.Raises → b.irq.pending = false) ∧ (b.make move).Answered moves

/-- The numbers of the clocks that raise the line, where so many were made before. -/
def rises (b : Mmc3) (clocks : Nat) : List Move → List Nat
  | [] => []
  | .answer x y :: moves => (b.make (.answer x y)).rises clocks moves
  | .clock :: moves =>
    let later := (b.make .clock).rises (clocks + 1) moves
    if b.irq.pending = false ∧ (b.make .clock).irq.pending = true then (clocks + 1) :: later
    else later

/-- A clock for each two bytes, which are at once the answer if there is an interrupt. -/
def attend (b : Mmc3) : List (UInt8 × UInt8) → List Move
  | [] => []
  | (x, y) :: bytes =>
    let next := b.make .clock
    if next.irq.pending then .clock :: .answer x y :: (next.make (.answer x y)).attend bytes
    else .clock :: next.attend bytes

variable {b : Mmc3} {clocks : Nat}

theorem irq_make_clock (b : Mmc3) : (b.make .clock).irq = b.irq.clock := rfl

theorem irq_make_answer (b : Mmc3) (x y : UInt8) :
    (b.make (.answer x y)).irq = b.irq.disable.enable := by
  rw [make, irq_run]
  rfl

theorem count_answer (x y : UInt8) (moves : List Move) :
    (Move.answer x y :: moves).count .clock = moves.count .clock :=
  List.count_cons_of_ne (by simp)

theorem answered_attend (hlow : b.irq.pending = false) (bytes : List (UInt8 × UInt8)) :
    b.Answered (b.attend bytes) ∧ (b.attend bytes).count .clock = bytes.length := by
  induction bytes generalizing b with
  | nil => exact ⟨trivial, rfl⟩
  | cons pair bytes ih =>
    obtain ⟨x, y⟩ := pair
    unfold attend
    dsimp only
    split
    case isTrue hup =>
      have hdown : ((b.make .clock).make (.answer x y)).irq.pending = false := by
        rw [irq_make_answer]
        rfl
      obtain ⟨hanswered, hcount⟩ := ih hdown
      have hnoClock : Move.answer x y = .clock → (b.make .clock).irq.Raises →
          (b.make .clock).irq.pending = false := fun h => by cases h
      refine ⟨⟨fun _ _ => hlow, hnoClock, hanswered⟩, ?_⟩
      rw [List.count_cons_self, count_answer, hcount, List.length_cons]
    case isFalse hdown =>
      obtain ⟨hanswered, hcount⟩ := ih (Bool.eq_false_iff.2 hdown)
      refine ⟨⟨fun _ _ => hlow, hanswered⟩, ?_⟩
      rw [List.count_cons_self, hcount, List.length_cons]

theorem rises_of_clocked {moves : List Move} (h : b.irq.Clocked clocks)
    (hanswered : b.Answered moves) : b.rises clocks moves =
      (List.range' (clocks + 1) (moves.count .clock)).filter fun n =>
        b.irq.latch ≠ 0 ∧ b.irq.latch.toNat + 1 ∣ n := by
  induction moves generalizing b clocks with
  | nil => rfl
  | cons move moves ih =>
    obtain ⟨hlow, hanswered⟩ := hanswered
    cases move with
    | answer x y =>
      have hirq := irq_make_answer b x y
      have hclocked : (b.make (.answer x y)).irq.Clocked clocks := by
        rw [hirq]
        exact ⟨rfl, h.reload, h.counter⟩
      rw [count_answer]
      exact (ih hclocked hanswered).trans (by rw [hirq]; rfl)
    | clock =>
      have hclocked : (b.make .clock).irq.Clocked (clocks + 1) := h.clock
      have hlatch : (b.make .clock).irq.latch = b.irq.latch := b.irq.latch_clock
      have hrises : b.irq.pending = false ∧ (b.make .clock).irq.pending = true ↔
          b.irq.latch ≠ 0 ∧ b.irq.latch.toNat + 1 ∣ clocks + 1 := by
        rw [irq_make_clock, ScanlineCounter.pending_clock, ← h.raises_iff]
        constructor
        · rintro ⟨hdown, hraises | hup⟩
          · exact hraises
          · rw [hdown] at hup
            cases hup
        · exact fun hraises => ⟨hlow rfl hraises, .inl hraises⟩
      rw [rises, List.count_cons_self, List.range'_succ, List.filter_cons, ih hclocked hanswered,
        hlatch]
      simp only [hrises, decide_eq_true_eq]

theorem filter_dvd_range' (period k : Nat) :
    (List.range' 1 k).filter (fun n => period ∣ n) =
      (List.range (k / period)).map fun i => (i + 1) * period := by
  induction k with
  | zero => rw [Nat.zero_div]; rfl
  | succ k ih =>
    rw [List.range'_concat, List.filter_append, ih, Nat.succ_div, Nat.one_mul, Nat.add_comm 1 k]
    split
    case isTrue hdvd =>
      have hlast : (k / period + 1) * period = k + 1 := by
        rw [← Nat.div_mul_cancel hdvd, Nat.succ_div, if_pos hdvd]
      rw [List.range_succ, List.map_append, List.map_singleton, hlast]
      simp [hdvd]
    case isFalse hdvd => simp [hdvd]

/-! ### The schedule -/

/-- After a latch, a reload and interrupts were asked for, in any order, the counter comes down from
the latch once in each period, and the line, if nothing is written, is up from the end of the first
period on.  If interrupts are answered before the next, one comes at the end of each period and
none else.  They are if they are answered at once. -/
theorem schedule_of_setup {b : Mmc3} (hlow : b.irq.pending = false) (latch x y : UInt8)
    {setup : List Op}
    (hsetup : setup.Perm [.cpuWrite 0xC000 latch, .cpuWrite 0xC001 x, .cpuWrite 0xE001 y]) :
    let start := b.run setup
    let period := latch.toNat + 1
    (∀ k, 1 ≤ k → let s := (start.run (List.replicate k .clock)).irq
      s.counter.toNat = latch.toNat - (k - 1) % period ∧
      (s.pending = true ↔ 1 ≤ latch.toNat ∧ period ≤ k)) ∧
    (∀ moves, start.Answered moves → start.rises 0 moves =
      if latch = 0 then []
      else (List.range (moves.count .clock / period)).map fun i => (i + 1) * period) ∧
    (∀ bytes, start.Answered (start.attend bytes) ∧
      (start.attend bytes).count .clock = bytes.length) := by
  intro start period
  have hstart : start.irq = { b.irq with latch, reload := true, enabled := true } := by
    rw [irq_run]
    exact ScanlineCounter.hear_setup (hsetup.filterMap Op.signal?) b.irq
  have hclocked : start.irq.Clocked 0 := by
    rw [hstart]
    exact ScanlineCounter.clocked_of_asked rfl rfl
  have hdown : start.irq.pending = false := by
    rw [hstart]
    exact hlow
  have hlatch : start.irq.latch = latch := by rw [hstart]
  refine ⟨fun k hk => ?_, fun moves hanswered => ?_, fun bytes => answered_attend hdown bytes⟩
  · have hsignals : (List.replicate k Op.clock).filterMap Op.signal? = List.replicate k .clock := by
      have hclock : Op.clock.signal? = some .clock := rfl
      exact List.filterMap_replicate_of_some hclock
    obtain ⟨hkept, hcounter, hpending⟩ := hclocked.hear_clocks hdown k
    rw [irq_run, hsignals]
    refine ⟨?_, ?_⟩
    · rw [hcounter.counter (Nat.ne_of_gt hk), hkept, hlatch]
    · rw [hpending, hlatch]
      simp [period, ← UInt8.toNat_inj, Nat.one_le_iff_ne_zero]
  · rw [rises_of_clocked hclocked hanswered, hlatch]
    split
    case isTrue hzero => simp [hzero]
    case isFalse hpositive =>
      rw [← filter_dvd_range']
      simp [hpositive, period]

/-- A latch of two, set last: two interrupts in seven clocks, with the third and the sixth. -/
theorem schedule_of_setup_latch_last :
    let b := powerOn (Array.replicate 0x8000 0) ⟨Array.replicate 0x2000 0, false⟩ .horizontal
    let start := b.run [.cpuWrite 0xE001 0, .cpuWrite 0xC001 0, .cpuWrite 0xC000 2]
    (start.run (List.replicate 3 .clock)).irq.pending = true ∧
      start.rises 0 (start.attend (List.replicate 7 (0, 0))) = [3, 6] := by
  intro b start
  have hsetup : [Op.cpuWrite 0xE001 0, .cpuWrite 0xC001 0, .cpuWrite 0xC000 2].Perm
      [.cpuWrite 0xC000 2, .cpuWrite 0xC001 0, .cpuWrite 0xE001 0] := by decide
  obtain ⟨hcounter, hrises, hattend⟩ := schedule_of_setup (b := b) rfl 2 0 0 hsetup
  obtain ⟨hanswered, hcount⟩ := hattend (List.replicate 7 (0, 0))
  refine ⟨(hcounter 3 (by decide)).2.2 (by decide), ?_⟩
  exact (hrises _ hanswered).trans (by rw [hcount]; decide)

end Mmc3

end Nes
