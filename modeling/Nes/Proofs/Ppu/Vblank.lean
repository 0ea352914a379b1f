import Nes.Proofs.Ppu.Run

/-!
# The vertical blank and its interrupt

The vertical blank lasts from dot 1 of line 241 to dot 0 of line 261.  The status flag and the
interrupt latch are both raised where it begins and lowered where it ends, and in between each is
lowered by one operation alone: the flag by a read of the status register, the latch by being
taken.  Whatever is done to the unit, and in whatever order, both can therefore be told from the
beam and from what happened since the vertical blank last began.
-/

namespace Nes

namespace Beam

/-- The dot within the frame, counted from the first of the picture. -/
def position (b : Beam) : Nat := 341 * b.scanline + b.dot

def InVblank (b : Beam) : Prop := 241 * 341 + 1 ≤ b.position ∧ b.position ≤ 261 * 341

theorem inVblank_of_atVblank {b : Beam} (h : b.atVblank = true) : b.InVblank := by
  simp only [atVblank, vblankLine, Bool.and_eq_true, beq_iff_eq] at h
  simp only [InVblank, position, h]
  omega

theorem not_inVblank_of_atPreRender {b : Beam} (h : b.atPreRender = true) : ¬ b.InVblank := by
  simp only [atPreRender, preRenderLine, Bool.and_eq_true, beq_iff_eq] at h
  simp only [InVblank, position, h]
  omega

theorem position_next {b : Beam} (h : b.Valid) :
    b.next.position = 0 ∧ b.position = 261 * 341 + 340 ∨ b.next.position = b.position + 1 := by
  obtain ⟨scanline, dot, frames⟩ := b
  simp only [Valid, linesPerFrame, dotsPerLine] at h
  unfold next position linesPerFrame dotsPerLine
  dsimp only
  split
  · split
    · left
      dsimp only
      omega
    · right
      dsimp only
      omega
  · right
    rfl

theorem atVblank_of_position {b : Beam} (h : b.Valid) (hpos : b.position = 241 * 341 + 1) :
    b.atVblank = true := by
  simp only [Valid, linesPerFrame, dotsPerLine, position] at h hpos
  simp only [atVblank, vblankLine, Bool.and_eq_true, beq_iff_eq]
  omega

theorem atPreRender_of_position {b : Beam} (h : b.Valid) (hpos : b.position = 261 * 341 + 1) :
    b.atPreRender = true := by
  simp only [Valid, linesPerFrame, dotsPerLine, position] at h hpos
  simp only [atPreRender, preRenderLine, Bool.and_eq_true, beq_iff_eq]
  omega

theorem inVblank_next {b : Beam} (h : b.Valid) (hblank : b.next.atVblank = false)
    (hpre : b.next.atPreRender = false) : b.next.InVblank ↔ b.InVblank := by
  have hvalid := b.valid_next h
  have hbegin : b.next.position ≠ 241 * 341 + 1 := by
    intro hpos
    simp [atVblank_of_position hvalid hpos] at hblank
  have hend : b.next.position ≠ 261 * 341 + 1 := by
    intro hpos
    simp [atPreRender_of_position hvalid hpos] at hpre
  have hnext := position_next h
  simp only [InVblank]
  omega

theorem not_inVblank_before {b : Beam} (h : b.Valid) (hblank : b.next.atVblank = true) :
    ¬ b.InVblank := by
  simp only [atVblank, vblankLine, Bool.and_eq_true, beq_iff_eq] at hblank
  have hpos : b.next.position = 241 * 341 + 1 := by simp only [position, hblank]
  have hnext := position_next h
  simp only [InVblank]
  omega

end Beam

namespace Ppu

/-! ### Since the vertical blank began -/

/-- The operation moved the beam to where the vertical blank begins. -/
def Op.begins (op : Op) (after : Ppu) : Bool := op.isStep && after.beam.atVblank

/-- The unit as the vertical blank last began, and what happened since. -/
def lastEntry (s : Picture) : List Op → Option (Ppu × List Op)
  | [] => none
  | op :: ops =>
    match lastEntry (apply s op) ops with
    | some entry => some entry
    | none => if op.begins (apply s op).1 then some ((apply s op).1, ops) else none

theorem lastEntry_snoc (s : Picture) (ops : List Op) (op : Op) : lastEntry s (ops ++ [op]) =
    if op.begins (apply (run s ops) op).1 then some ((apply (run s ops) op).1, [])
    else (lastEntry s ops).map fun entry => (entry.1, entry.2 ++ [op]) := by
  induction ops generalizing s with
  | nil => rfl
  | cons first ops ih =>
    have hrun : run s (first :: ops) = run (apply s first) ops := rfl
    rw [hrun, List.cons_append, lastEntry, ih, lastEntry]
    by_cases hlast : op.begins (apply (run (apply s first) ops) op).1
    · simp [hlast]
    · cases lastEntry (apply s first) ops with
      | some entry => simp [hlast]
      | none => by_cases hfirst : first.begins (apply s first).1 <;> simp [hlast, hfirst]

/-! ### Flags of the vertical blank -/

/-- A flag that is raised only where the vertical blank begins, and lowered where it ends or by
operations of one kind. -/
structure VblankFlag where
  value : Ppu → Bool
  raisedBy : Ppu → Bool
  loweredBy : Op → Bool
  value_powerOn : value powerOn = false
  value_step : ∀ s : Picture, value (apply s .step).1 =
    if s.1.beam.next.atVblank then value s.1 || raisedBy (apply s .step).1
    else if s.1.beam.next.atPreRender then false
    else value s.1
  value_other : ∀ (s : Picture) (op : Op), op.isStep = false →
    value (apply s op).1 = (value s.1 && !loweredBy op)
  loweredBy_step : loweredBy .step = false

namespace VblankFlag

variable (f : VblankFlag)

/-- Raised by the last entry and not lowered since. -/
def Stands (entry : Option (Ppu × List Op)) : Prop :=
  ∃ entered since, entry = some (entered, since) ∧ f.raisedBy entered = true ∧
    ∀ op ∈ since, f.loweredBy op = false

theorem stands_entered (entered : Ppu) :
    f.Stands (some (entered, [])) ↔ f.raisedBy entered = true := by
  simp [Stands]

theorem stands_snoc (entry : Option (Ppu × List Op)) (op : Op) :
    f.Stands (entry.map fun entry => (entry.1, entry.2 ++ [op])) ↔
      f.Stands entry ∧ f.loweredBy op = false := by
  cases entry with
  | none => simp [Stands]
  | some entry =>
    obtain ⟨entered, since⟩ := entry
    simp only [Stands, Option.map_some, Option.some.injEq, Prod.mk.injEq]
    constructor
    · rintro ⟨_, _, ⟨rfl, rfl⟩, hraised, hstands⟩
      refine ⟨⟨_, _, ⟨rfl, rfl⟩, hraised, fun o ho => hstands o ?_⟩, hstands op ?_⟩
      · exact List.mem_append_left _ ho
      · exact List.mem_append_right _ (List.mem_singleton_self op)
    · rintro ⟨⟨_, _, ⟨rfl, rfl⟩, hraised, hstands⟩, hop⟩
      refine ⟨_, _, ⟨rfl, rfl⟩, hraised, fun o ho => ?_⟩
      rcases List.mem_append.1 ho with ho | ho
      · exact hstands o ho
      · rw [List.mem_singleton.1 ho]
        exact hop

theorem value_run (board : Board) (ops : List Op) :
    f.value (run (powerOn, board) ops).1 = true ↔
      (run (powerOn, board) ops).1.beam.InVblank ∧ f.Stands (lastEntry (powerOn, board) ops) := by
  induction ops using List.reverseRecOn with
  | nil =>
    have hoff : f.value (run (powerOn, board) []).1 = false := f.value_powerOn
    simp [hoff, lastEntry, Stands]
  | append_singleton ops op ih =>
    have hvalid := valid_run board ops
    rw [run_snoc, lastEntry_snoc]
    generalize run (powerOn, board) ops = s at ih hvalid ⊢
    cases hop : op.isStep with
    | false =>
      have hbegins : op.begins (apply s op).1 = false := by simp [Op.begins, hop]
      rw [f.value_other s op hop, beam_apply_other s hop, hbegins, if_neg (by decide),
        stands_snoc, Bool.and_eq_true, ih, Bool.not_eq_true', and_assoc]
    | true =>
      obtain rfl := Op.eq_step hop
      have hbegins : Op.begins .step (apply s .step).1 = s.1.beam.next.atVblank := by
        simp [Op.begins, beam_apply_step, hop]
      rw [f.value_step, hbegins, beam_apply_step]
      cases hblank : s.1.beam.next.atVblank with
      | true =>
        -- the flag was down before the entry, so that it is up exactly if the entry raises it
        have hdown : f.value s.1 = false := by
          rw [← Bool.not_eq_true, ih]
          exact fun hup => Beam.not_inVblank_before hvalid hblank hup.1
        simp [hdown, stands_entered, Beam.inVblank_of_atVblank hblank]
      | false =>
        simp only [Bool.false_eq_true, ite_false, stands_snoc]
        cases hpre : s.1.beam.next.atPreRender with
        | true => simp [Beam.not_inVblank_of_atPreRender hpre]
        | false => simp [ih, Beam.inVblank_next hvalid hblank hpre, f.loweredBy_step]

theorem value_of_no_entry {s : Picture} {ops : List Op} (h : f.value s.1 = false)
    (hnone : lastEntry s ops = none) : f.value (run s ops).1 = false := by
  induction ops generalizing s with
  | nil => exact h
  | cons op ops ih =>
    rw [lastEntry] at hnone
    split at hnone
    · cases hnone
    case h_2 hrest =>
      refine ih ?_ hrest
      cases hop : op.isStep with
      | false => simp [f.value_other s op hop, h]
      | true =>
        obtain rfl := Op.eq_step hop
        have hblank : s.1.beam.next.atVblank = false := by
          simpa [Op.begins, beam_apply_step, hop] using hnone
        simp [f.value_step, hblank, h]

end VblankFlag

/-! ### The two flags -/

theorem vblank_tick (ppu : Ppu) (board : Board) : (ppu.tick board).vblank =
    if ppu.beam.next.atVblank then true
    else if ppu.beam.next.atPreRender then false
    else ppu.vblank := by
  rw [tick_eq]

theorem vblank_readRegister (ppu : Ppu) (board : Board) (number : UInt8) :
    (ppu.readRegister board number).2.vblank = (ppu.vblank && !(number &&& 7 == 2)) := by
  obtain ⟨_, _, hread⟩ := ppu.readRegister_eq board number
  rw [hread]

theorem vblank_writeRegister (ppu : Ppu) (board : Board) (number b : UInt8) :
    (ppu.writeRegister board number b).1.vblank = ppu.vblank := by
  obtain ⟨_, _, _, _, _, hwrite, -⟩ := ppu.writeRegister_eq board number b
  rw [hwrite]

def statusFlag : VblankFlag where
  value ppu := ppu.vblank
  raisedBy _ := true
  loweredBy := Op.readsStatus
  value_powerOn := rfl
  value_step s := by
    show (s.1.tick s.2).vblank = _
    simp [vblank_tick]
  value_other s op hop := by
    cases op with
    | step => cases hop
    | readRegister number => exact s.1.vblank_readRegister s.2 number
    | writeRegister number b => simp [apply, vblank_writeRegister, Op.readsStatus]
    | takeNmi =>
      simp only [apply, takeNmi, Op.readsStatus]
      split <;> simp
    | takeFrameReady =>
      simp only [apply, takeFrameReady, Op.readsStatus]
      split <;> simp
    | onBoard change => simp [apply, Op.readsStatus]
  loweredBy_step := rfl

def nmiLatch : VblankFlag where
  value ppu := ppu.nmi
  raisedBy := nmiEnabled
  loweredBy := Op.takesNmi
  value_powerOn := rfl
  value_step s := by
    have henabled : (s.1.tick s.2).nmiEnabled = s.1.nmiEnabled := by
      simp only [nmiEnabled, control_tick]
    show (s.1.tick s.2).nmi = if _ then s.1.nmi || (s.1.tick s.2).nmiEnabled else _
    rw [nmi_tick, henabled]
  value_other s op hop := by
    cases op with
    | step => cases hop
    | readRegister number => simp [apply, nmi_readRegister, Op.takesNmi]
    | writeRegister number b => simp [apply, nmi_writeRegister, Op.takesNmi]
    | takeNmi =>
      simp only [apply, takeNmi, Op.takesNmi]
      split
      · simp
      case isFalse hclear => simpa using hclear
    | takeFrameReady =>
      simp only [apply, takeFrameReady, Op.takesNmi]
      split <;> simp
    | onBoard change => simp [apply, Op.takesNmi]
  loweredBy_step := rfl

theorem takeNmi_answer (ppu : Ppu) : ppu.takeNmi.1 = ppu.nmi := by
  unfold takeNmi
  cases ppu.nmi <;> rfl

theorem nmi_takeNmi (ppu : Ppu) : ppu.takeNmi.2.nmi = false := by
  unfold takeNmi
  cases h : ppu.nmi with
  | true => rfl
  | false => exact h

/-- In every run from power on the status flag is up exactly in the vertical blank until the status
register is read, and the latch exactly in a vertical blank that began with the interrupt enabled,
until it is taken.  No register access moves the latch, and it is taken at most once per entry. -/
theorem vblank_flags_of_run (board : Board) (ops : List Op) :
    let start : Picture := (powerOn, board)
    let ppu := (run start ops).1
    let pos := 341 * ppu.beam.scanline + ppu.beam.dot
    (ppu.vblank = true ↔ (241 * 341 + 1 ≤ pos ∧ pos ≤ 261 * 341) ∧
      ∃ entered since, lastEntry start ops = some (entered, since) ∧
        ∀ op ∈ since, op.readsStatus = false) ∧
    (ppu.nmi = true ↔ (241 * 341 + 1 ≤ pos ∧ pos ≤ 261 * 341) ∧
      ∃ entered since, lastEntry start ops = some (entered, since) ∧
        entered.nmiEnabled = true ∧ ∀ op ∈ since, op.takesNmi = false) ∧
    (∀ number, (run start (ops ++ [.readRegister number])).1.nmi = ppu.nmi) ∧
    (∀ number b, (run start (ops ++ [.writeRegister number b])).1.nmi = ppu.nmi) ∧
    (∀ between, ¬ ((run (apply (run start ops) .takeNmi) between).1.takeNmi.1 = true ∧
      lastEntry (apply (run start ops) .takeNmi) between = none)) := by
  intro start ppu pos
  refine ⟨?_, nmiLatch.value_run board ops, fun number => ?_, fun number b => ?_, fun between => ?_⟩
  · have hflag := statusFlag.value_run board ops
    simp only [VblankFlag.Stands, statusFlag, true_and] at hflag
    exact hflag
  · rw [run_snoc]
    exact nmi_readRegister _ _ number
  · rw [run_snoc]
    exact nmi_writeRegister _ _ number b
  · rintro ⟨htaken, hnone⟩
    have hclear : (apply (run start ops) .takeNmi).1.nmi = false := nmi_takeNmi _
    have hdown : (run (apply (run start ops) .takeNmi) between).1.nmi = false :=
      nmiLatch.value_of_no_entry hclear hnone
    rw [takeNmi_answer, hdown] at htaken
    cases htaken

end Ppu

end Nes
