import Nes.Proofs.Ppu.DataPort
import Nes.Proofs.Ppu.Frames

/-!
# The position that was written

Two bytes given to the scroll register and one to the control register stand for a place on the
nametables.  Each of the three writes replaces fields of its own, so that the control byte may come
before, between or after the others and nothing is left of what was gathered earlier.  Once a
rendered line 261 has put the position into use, the next picture starts at that place.
-/

namespace Nes

/-! ### Fields -/

namespace Scroll

theorem nametable_kept (c : UInt8) :
    (c &&& 0x03).toUInt16 * 0x400 &&& 0xFFE0 = (c &&& 0x03).toUInt16 * 0x400 ∧
      (c &&& 0x03).toUInt16 * 0x400 &&& 0x8C1F = (c &&& 0x03).toUInt16 * 0x400 := by
  revert c
  apply forall_byte
  decide +kernel

theorem column_kept (b : UInt8) :
    (b / 8).toUInt16 &&& 0xF3FF = (b / 8).toUInt16 ∧
      (b / 8).toUInt16 &&& 0x8C1F = (b / 8).toUInt16 := by
  revert b
  apply forall_byte
  decide +kernel

theorem row_kept (b : UInt8) :
    (b &&& 0x07).toUInt16 * 0x1000 &&& 0xF3FF = (b &&& 0x07).toUInt16 * 0x1000 ∧
      (b &&& 0xF8).toUInt16 * 4 &&& 0xF3FF = (b &&& 0xF8).toUInt16 * 4 := by
  revert b
  apply forall_byte
  decide +kernel

theorem writePosition_writeControl (s : Scroll) (b c : UInt8) :
    (s.writeControl c).writePosition b = (s.writePosition b).writeControl c := by
  obtain ⟨v, t, fineX, second⟩ := s
  cases second with
  | false =>
    simp only [writePosition, writeControl, Bool.false_eq_true, if_false, mk.injEq, true_and,
      and_true]
    rw [or_and, or_and, (nametable_kept c).1, (column_kept b).1]
    ac_rfl
  | true =>
    simp only [writePosition, writeControl, if_true, mk.injEq, true_and, and_true]
    rw [or_and, or_and, or_and, (nametable_kept c).2, (row_kept b).1, (row_kept b).2]
    ac_rfl

/-- The position that three bytes stand for. -/
def position (c sx sy : UInt8) : UInt16 :=
  (sy &&& 7).toUInt16 <<< 12 ||| (c &&& 3).toUInt16 <<< 10 ||| (sy >>> 3).toUInt16 <<< 5 |||
    (sx >>> 3).toUInt16

theorem fields_shifted (b : UInt8) :
    (b &&& 0x07).toUInt16 * (0x1000 : UInt16) = (b &&& 7).toUInt16 <<< 12 ∧
      (b &&& 0x03).toUInt16 * (0x400 : UInt16) = (b &&& 3).toUInt16 <<< 10 ∧
      (b &&& 0xF8).toUInt16 * (4 : UInt16) = (b >>> 3).toUInt16 <<< 5 ∧
      (b / 8).toUInt16 = (b >>> 3).toUInt16 := by
  revert b
  apply forall_byte
  decide +kernel

theorem position_gathered {s : Scroll} (h : s.Valid) (hfirst : s.second = false)
    (c sx sy : UInt8) : ((s.writePosition sx).writePosition sy).writeControl c =
      { s with t := position c sx sy, fineX := sx &&& 7 } := by
  obtain ⟨hfine, -, hrow, -⟩ := fields_shifted sy
  obtain ⟨-, htable, -, -⟩ := fields_shifted c
  obtain ⟨-, -, -, hcolumn⟩ := fields_shifted sx
  -- Fifteen bits are written anew, and the one that the masks leave was clear.
  have hold : s.t &&& 0xFFE0 &&& 0x8C1F &&& 0xF3FF = 0 := by
    rw [UInt16.and_assoc, UInt16.and_assoc]
    exact top_clear h.t
  have ht : ((s.t &&& 0xFFE0 ||| (sx / 8).toUInt16) &&& 0x8C1F |||
      (sy &&& 0x07).toUInt16 * 0x1000 ||| (sy &&& 0xF8).toUInt16 * 4) &&& 0xF3FF |||
      (c &&& 0x03).toUInt16 * 0x400 = position c sx sy := by
    rw [or_and, or_and, or_and, or_and, (column_kept sx).2, (column_kept sx).1, hold,
      (row_kept sy).1, (row_kept sy).2, UInt16.zero_or, hfine, hrow, htable, hcolumn]
    unfold position
    ac_rfl
  obtain ⟨v, t, fineX, second⟩ := s
  obtain rfl : second = false := hfirst
  simp only [writePosition, writeControl, Bool.false_eq_true, if_false, if_true, ht]

theorem toNat_position (c sx sy : UInt8) : (position c sx sy).toNat =
    4096 * (sy.toNat % 8) + 1024 * (c.toNat % 4) + 32 * (sy.toNat / 8) + sx.toNat / 8 := by
  have hparts (b : UInt8) : ((b &&& 7).toUInt16 <<< 12).toNat = 2 ^ 12 * (b.toNat % 8) ∧
      ((b &&& 3).toUInt16 <<< 10).toNat = 2 ^ 10 * (b.toNat % 4) ∧
      ((b >>> 3).toUInt16 <<< 5).toNat = 2 ^ 5 * (b.toNat / 8) ∧
      (b >>> 3).toUInt16.toNat = b.toNat / 8 := by
    revert b
    apply forall_byte
    decide +kernel
  have hsx := sx.toNat_lt
  have hsy := sy.toNat_lt
  have hcolumn : sx.toNat / 8 < 2 ^ 5 := by omega
  have hrow : 2 ^ 5 * (sy.toNat / 8) + sx.toNat / 8 < 2 ^ 10 := by omega
  have htable : 2 ^ 10 * (c.toNat % 4) + (2 ^ 5 * (sy.toNat / 8) + sx.toNat / 8) < 2 ^ 12 := by
    omega
  unfold position
  rw [UInt16.toNat_or, UInt16.toNat_or, UInt16.toNat_or, (hparts sy).1, (hparts c).2.1,
    (hparts sy).2.2.1, (hparts sx).2.2.2, Nat.or_assoc, Nat.or_assoc,
    ← Nat.two_pow_add_eq_or_of_lt hcolumn, ← Nat.two_pow_add_eq_or_of_lt hrow,
    ← Nat.two_pow_add_eq_or_of_lt htable]
  omega

/-! ### The order of the writes -/

/-- What reaches the position through the status, control and scroll registers. -/
inductive Access
  | status
  | control (b : UInt8)
  | position (b : UInt8)
deriving DecidableEq

def access (s : Scroll) : Access → Scroll
  | .status => s.clearToggle
  | .control b => s.writeControl b
  | .position b => s.writePosition b

/-- The two bytes of a position after a read of the status register, and the control byte in one of
four places. -/
def orders (c sx sy : UInt8) : List (List Access) :=
  [[.control c, .status, .position sx, .position sy],
    [.status, .control c, .position sx, .position sy],
    [.status, .position sx, .control c, .position sy],
    [.status, .position sx, .position sy, .control c]]

theorem access_order {s : Scroll} (h : s.Valid) {c sx sy : UInt8} {accesses : List Access}
    (horder : accesses ∈ orders c sx sy) : accesses.foldl access s =
      { s with t := position c sx sy, fineX := sx &&& 7, second := false } := by
  have hlast := position_gathered h.clearToggle rfl c sx sy
  have hcleared : (s.writeControl c).clearToggle = s.clearToggle.writeControl c := rfl
  simp only [orders, List.mem_cons, List.not_mem_nil, or_false] at horder
  rcases horder with rfl | rfl | rfl | rfl <;>
  · simp only [List.foldl_cons, List.foldl_nil, access, hcleared, writePosition_writeControl, hlast]
    rfl

/-! ### Following the gathered position -/

/-- What is gathered stays, and what is in use stays or becomes what is gathered. -/
structure Follows (s next : Scroll) : Prop where
  t : next.t = s.t
  fineX : next.fineX = s.fineX
  v : next.v = s.v ∨ next.v = s.t

namespace Follows

variable {s next last : Scroll}

theorem refl (s : Scroll) : s.Follows s := ⟨rfl, rfl, .inl rfl⟩

theorem trans (h : s.Follows next) (hlast : next.Follows last) : s.Follows last := by
  refine ⟨hlast.t.trans h.t, hlast.fineX.trans h.fineX, ?_⟩
  rcases hlast.v with hkept | hput
  · rw [hkept]
    exact h.v
  · exact .inr (hput.trans h.t)

end Follows

end Scroll

/-- A background at a position starts at the pixel that the bytes name. -/
theorem Background.origin_of_position {bg : Background} {c sx sy : UInt8}
    (hv : bg.v = Scroll.position c sx sy) (hfine : bg.fineX = sx &&& 7) :
    8 * bg.coarseX + bg.fineX.toNat = sx.toNat ∧ 8 * bg.coarseY + bg.fineY = sy.toNat ∧
      bg.nametable = (c &&& 3).toNat := by
  have hposition := Scroll.toNat_position c sx sy
  have hsx := sx.toNat_lt
  have hsy := sy.toNat_lt
  have hseven : (sx &&& 7).toNat = sx.toNat % 8 := by
    rw [UInt8.toNat_and]
    exact Nat.and_two_pow_sub_one_eq_mod _ 3
  have hthree : (c &&& 3).toNat = c.toNat % 4 := by
    rw [UInt8.toNat_and]
    exact Nat.and_two_pow_sub_one_eq_mod _ 2
  have hfields (fine table row column : Nat) (hfine : fine < 8) (htable : table < 4)
      (hrow : row < 32) (hcolumn : column < 32) :
      (4096 * fine + 1024 * table + 32 * row + column) % 32 = column ∧
      (4096 * fine + 1024 * table + 32 * row + column) / 32 % 32 = row ∧
      (4096 * fine + 1024 * table + 32 * row + column) / 1024 % 4 = table ∧
      (4096 * fine + 1024 * table + 32 * row + column) / 4096 % 8 = fine := by
    omega
  obtain ⟨hcolumn, hrow, htable, hline⟩ := hfields (sy.toNat % 8) (c.toNat % 4) (sy.toNat / 8)
    (sx.toNat / 8) (Nat.mod_lt _ (by decide)) (Nat.mod_lt _ (by decide)) (by omega) (by omega)
  unfold coarseX coarseY fineY nametable
  rw [hv, hposition, hcolumn, hrow, htable, hline, hfine, hseven, hthree]
  omega

namespace Ppu

/-! ### Accesses in a run -/

def Op.access? : Op → Option Scroll.Access
  | .readRegister number => if number &&& 7 = 2 then some .status else none
  | .writeRegister number b =>
    if number &&& 7 = 0 then some (.control b)
    else if number &&& 7 = 5 then some (.position b)
    else none
  | _ => none

/-- A write to the mask or to one of the registers behind which there is nothing. -/
def Op.passesBy : Op → Bool
  | .writeRegister number _ => number &&& 7 == 1 || number &&& 7 == 3 || number &&& 7 == 4
  | _ => false

/-- The operation reads or writes one of these registers. -/
def Op.reaches (registers : List UInt8) : Op → Bool
  | .readRegister number => registers.contains (number &&& 7)
  | .writeRegister number _ => registers.contains (number &&& 7)
  | _ => false

/-- Accesses that set the position: the status register is read, the position and the control byte
are written, and what else is written does not reach the position. -/
structure Sets (accesses : List Op) (c sx sy : UInt8) : Prop where
  only : ∀ op ∈ accesses, op.access? ≠ none ∨ op.passesBy = true
  order : accesses.filterMap Op.access? ∈ Scroll.orders c sx sy

theorem scroll_apply_access (s : Picture) {op : Op} {a : Scroll.Access} (h : op.access? = some a) :
    (apply s op).1.scroll = s.1.scroll.access a := by
  cases op with
  | readRegister number =>
    simp only [Op.access?, Option.ite_none_right_eq_some, Option.some.injEq] at h
    obtain ⟨hstatus, rfl⟩ := h
    rw [apply, scroll_readRegister, if_pos hstatus]
    rfl
  | writeRegister number b =>
    rw [apply, scroll_writeRegister]
    unfold Op.access? at h
    dsimp only at h
    split at h
    case isTrue hcontrol =>
      obtain rfl := Option.some.inj h
      rw [if_pos hcontrol]
      rfl
    case isFalse hcontrol =>
      rw [if_neg hcontrol]
      split at h
      case isTrue hposition =>
        obtain rfl := Option.some.inj h
        rw [if_pos hposition]
        rfl
      case isFalse => cases h
  | _ => cases h

theorem scroll_apply_passesBy (s : Picture) {op : Op} (h : op.passesBy = true) :
    (apply s op).1.scroll = s.1.scroll := by
  cases op with
  | writeRegister number b =>
    rw [apply, scroll_writeRegister]
    simp only [Op.passesBy, Bool.or_eq_true, beq_iff_eq] at h
    rcases h with (h | h) | h <;>
    · rw [h]
      rfl
  | _ => cases h

theorem scroll_run_accesses (s : Picture) (accesses : List Op)
    (h : ∀ op ∈ accesses, op.access? ≠ none ∨ op.passesBy = true) :
    (run s accesses).1.scroll = (accesses.filterMap Op.access?).foldl Scroll.access s.1.scroll := by
  induction accesses generalizing s with
  | nil => rfl
  | cons op accesses ih =>
    have hrun : run s (op :: accesses) = run (apply s op) accesses := rfl
    have hop := h op List.mem_cons_self
    rw [hrun, ih _ fun other hother => h other (List.mem_cons_of_mem _ hother)]
    cases haccess : op.access? with
    | some a =>
      rw [scroll_apply_access s haccess, List.filterMap_cons_some haccess, List.foldl_cons]
    | none =>
      have hpasses := hop.resolve_left (fun hne => hne haccess)
      rw [scroll_apply_passesBy s hpasses, List.filterMap_cons_none haccess]

/-! ### Until the picture is drawn -/

theorem follows_apply (s : Picture) {op : Op} (h : op.reaches [0, 5, 6, 7] = false) :
    s.1.scroll.Follows (apply s op).1.scroll := by
  cases op with
  | step =>
    show s.1.scroll.Follows (s.1.tick s.2).scroll
    rw [scroll_tick]
    split
    · exact ⟨rfl, rfl, .inr rfl⟩
    · exact .refl _
  | readRegister number =>
    simp only [Op.reaches, List.contains_eq_mem, List.mem_cons, List.not_mem_nil, or_false,
      decide_eq_false_iff_not, not_or] at h
    rw [apply, scroll_readRegister, if_neg h.2.2.2]
    split
    · exact ⟨rfl, rfl, .inl rfl⟩
    · exact .refl _
  | writeRegister number b =>
    simp only [Op.reaches, List.contains_eq_mem, List.mem_cons, List.not_mem_nil, or_false,
      decide_eq_false_iff_not, not_or] at h
    rw [apply, scroll_writeRegister, if_neg h.1, if_neg h.2.1, if_neg h.2.2.1, if_neg h.2.2.2]
    exact .refl _
  | takeNmi =>
    rw [apply, takeNmi_eq]
    exact .refl _
  | takeFrameReady =>
    rw [apply, takeFrameReady_eq]
    exact .refl _
  | onBoard change => exact .refl _

theorem follows_run (s : Picture) (ops : List Op)
    (h : ∀ op ∈ ops, op.reaches [0, 5, 6, 7] = false) :
    s.1.scroll.Follows (run s ops).1.scroll := by
  induction ops using List.reverseRecOn with
  | nil => exact .refl _
  | append_singleton ops op ih =>
    have hbefore := ih fun other hother => h other (List.mem_append_left _ hother)
    have hlast := follows_apply (run s ops) (h op (List.mem_append_right _ List.mem_cons_self))
    rw [run_snoc]
    exact hbefore.trans hlast

/-- A rendered line 261 puts the gathered position into use, and there it stays. -/
theorem shown_after_arrival (s : Picture) {before between : List Op}
    (hquiet : ∀ op ∈ before ++ between, op.reaches [0, 5, 6, 7] = false)
    (harrival : (run s before).1.beam.next.atPreRender = true)
    (hrendering : (run s before).1.rendering = true) :
    let last := run (apply (run s before) .step) between
    last.1.scroll.v = s.1.scroll.t ∧ last.1.scroll.fineX = s.1.scroll.fineX := by
  intro last
  have hbefore := follows_run s before fun op hop => hquiet op (List.mem_append_left _ hop)
  have hbetween := follows_run (apply (run s before) .step) between
    fun op hop => hquiet op (List.mem_append_right _ hop)
  have hput : (apply (run s before) .step).1.scroll = (run s before).1.scroll.restart := by
    show ((run s before).1.tick (run s before).2).scroll = _
    rw [scroll_tick, harrival, hrendering]
    rfl
  rw [hput] at hbetween
  constructor
  · rcases hbetween.v with hv | hv <;>
    · rw [hv]
      exact hbefore.t
  · exact hbetween.fineX.trans hbefore.fineX

/-! ### An address, later -/

theorem shifted_pair (high low : UInt8) :
    Word.ofBytes low (high &&& 0x3F) = (high &&& 0x3F).toUInt16 <<< 8 ||| low.toUInt16 := by
  have hmoved : (high &&& 0x3F).toUInt16 * (0x100 : UInt16) = (high &&& 0x3F).toUInt16 <<< 8 := by
    revert high
    apply forall_byte
    decide +kernel
  rw [← Word.or_eq_ofBytes, hmoved]

theorem run_address_pair (s : Picture) (h : s.1.scroll.Valid) (high low : UInt8) :
    (run s [.readRegister 2, .writeRegister 6 high, .writeRegister 6 low]).1.scroll =
      { s.1.scroll with
        v := (high &&& 0x3F).toUInt16 <<< 8 ||| low.toUInt16
        t := (high &&& 0x3F).toUInt16 <<< 8 ||| low.toUInt16
        second := false } := by
  have hpair := Scroll.address_pair h.clearToggle rfl high low
  rw [shifted_pair] at hpair
  exact hpair

/-- After every run from power on, the position and the control byte are gathered as they were
written, in whatever order.  The picture drawn after the next rendered line 261 starts there if no
other access reaches the position meanwhile, and an address written later leaves nothing of it. -/
theorem scroll_writes_decoded (board : Board) (ops accesses : List Op) {c sx sy : UInt8}
    (hsets : Sets accesses c sx sy) :
    let start := run (powerOn, board) ops
    let written := run start accesses
    (written.1.scroll.fineX = sx &&& 7 ∧
      written.1.scroll.t = (sy &&& 7).toUInt16 <<< 12 ||| (c &&& 3).toUInt16 <<< 10 |||
        (sy >>> 3).toUInt16 <<< 5 ||| (sx >>> 3).toUInt16 ∧
      written.1.scroll.v = start.1.scroll.v) ∧
    (∀ before between : List Op,
      (∀ op ∈ before ++ between, op.reaches [0, 5, 6, 7] = false) →
      let arriving := run written before
      let last := run (apply arriving .step) between
      arriving.1.beam.next.atPreRender = true → arriving.1.mask &&& 0x18 ≠ 0 →
      Op.wraps .step last.1 = true →
      let bg := last.1.background
      (apply last .step).1.frame = bg.render last.2.ppuRead ∧
        8 * bg.coarseX + bg.fineX.toNat = sx.toNat ∧ 8 * bg.coarseY + bg.fineY = sy.toNat ∧
        bg.nametable = (c &&& 3).toNat) ∧
    (∀ (later : List Op) (high low : UInt8),
      let pointed := run written
        (later ++ [.readRegister 2, .writeRegister 6 high, .writeRegister 6 low])
      let address := (high &&& 0x3F).toUInt16 <<< 8 ||| low.toUInt16
      pointed.1.scroll.v = address ∧ pointed.1.scroll.t = address) := by
  intro start written
  have hwritten : written.1.scroll = { start.1.scroll with
      t := Scroll.position c sx sy, fineX := sx &&& 7, second := false } := by
    show (run start accesses).1.scroll = _
    rw [scroll_run_accesses start accesses hsets.only]
    exact Scroll.access_order (scroll_run_valid board ops) hsets.order
  refine ⟨?_, ?_, ?_⟩
  · rw [hwritten]
    exact ⟨rfl, rfl, rfl⟩
  · intro before between hquiet arriving last harrival hmask hwraps bg
    have hrendering : arriving.1.rendering = true := bne_iff_ne.2 hmask
    obtain ⟨hv, hfine⟩ := shown_after_arrival written hquiet harrival hrendering
    rw [hwritten] at hv hfine
    refine ⟨?_, Background.origin_of_position hv hfine⟩
    rw [frame_apply, if_pos hwraps]
  · intro later high low pointed address
    have hvalid : (run written later).1.scroll.Valid := by
      show (run (run (run (powerOn, board) ops) accesses) later).1.scroll.Valid
      rw [← run_append, ← run_append]
      exact scroll_run_valid board _
    have hpair := run_address_pair _ hvalid high low
    show (run written (later ++ _)).1.scroll.v = address ∧
      (run written (later ++ _)).1.scroll.t = address
    rw [run_append, hpair]
    exact ⟨rfl, rfl⟩

/-! ### A picture at the position of three bytes -/

def dots (n : Nat) : List Op := List.replicate n .step

theorem run_dots_add (s : Picture) (m n : Nat) :
    run s (dots (m + n)) = run (run s (dots m)) (dots n) := by
  rw [← run_append]
  exact congrArg (run s) (List.replicate_add ..)

theorem mask_dots (s : Picture) (n : Nat) : (run s (dots n)).1.mask = s.1.mask := by
  induction n with
  | zero => rfl
  | succ n ih =>
    rw [run_dots_add]
    show ((run s (dots n)).1.tick (run s (dots n)).2).mask = s.1.mask
    rw [tick_eq]
    exact ih

/-- Until the first frame is finished the beam's place is the number of dots. -/
theorem beam_in_first_frame (board : Board) (ops : List Op) {scanline dot : Nat}
    (hscanline : scanline < 262) (hdot : dot < 341)
    (h : ops.countP Op.isStep = 341 * scanline + dot) :
    (run (powerOn, board) ops).1.beam = ⟨scanline, dot, 0⟩ := by
  have helapsed := elapsed_run board ops
  obtain ⟨hline, hplace⟩ := valid_run board ops
  generalize (run (powerOn, board) ops).1.beam = beam at helapsed hline hplace ⊢
  obtain ⟨scanline', dot', frames⟩ := beam
  simp only [Beam.elapsed, Beam.linesPerFrame, Beam.dotsPerLine] at helapsed hline hplace
  simp only [Beam.mk.injEq]
  omega

def earlier : List Op := [.writeRegister 6 0x7F, .writeRegister 5 0xFF, .writeRegister 0 0x03]

/-- The control byte between the two others, and the mask shows the picture. -/
def betweenOthers : List Op :=
  [.readRegister 2, .writeRegister 1 0x08, .writeRegister 5 0x7D, .writeRegister 3 0x55,
    .writeRegister 0 0x92, .writeRegister 4 0xAA, .writeRegister 5 0x5E]

theorem sets_betweenOthers : Sets betweenOthers 0x92 0x7D 0x5E := ⟨by decide, by decide⟩

theorem drawn_at_position :
    let written := run (run (powerOn, blankBoard) earlier) betweenOthers
    let last := run (apply (run written (dots 89001)) .step) (dots 339)
    let bg := last.1.background
    written.1.scroll.t = 0x696F ∧ (apply last .step).1.frame = bg.render last.2.ppuRead ∧
      8 * bg.coarseX + bg.fineX.toNat = 125 ∧ 8 * bg.coarseY + bg.fineY = 94 ∧
      bg.nametable = 2 ∧
      (run written (dots 339 ++
        [.readRegister 2, .writeRegister 6 0xE1, .writeRegister 6 0x23])).1.scroll.v = 0x2123 := by
  -- Behind names the long runs are not unfolded where two terms are compared.
  generalize hbefore : dots 89001 = before
  generalize hbetween : dots 339 = between
  intro written last bg
  obtain ⟨⟨-, ht, -⟩, hdrawn, haddress⟩ :=
    scroll_writes_decoded blankBoard earlier betweenOthers sets_betweenOthers
  have hquiet : ∀ op ∈ before ++ between, op.reaches [0, 5, 6, 7] = false := by
    intro op hop
    rw [← hbefore, ← hbetween] at hop
    rcases List.mem_append.1 hop with h | h <;>
    · rw [List.eq_of_mem_replicate h]
      rfl
  have hbeam (n : Nat) {scanline dot : Nat} (hscanline : scanline < 262) (hdot : dot < 341)
      (h : n = 341 * scanline + dot) : (run written (dots n)).1.beam = ⟨scanline, dot, 0⟩ := by
    have hcount : (earlier ++ betweenOthers ++ dots n).countP Op.isStep = n := by
      rw [List.countP_append, dots, List.countP_replicate]
      exact Nat.zero_add n
    show (run (run (run (powerOn, blankBoard) earlier) betweenOthers) (dots n)).1.beam = _
    rw [← run_append, ← run_append]
    exact beam_in_first_frame _ _ hscanline hdot (hcount.trans h)
  have harriving : (run written before).1.beam = ⟨261, 0, 0⟩ := by
    rw [← hbefore]
    exact hbeam 89001 (by decide) (by decide) rfl
  have hlast : last.1.beam = ⟨261, 340, 0⟩ := by
    have hjoined : last = run written (dots (89001 + 1 + 339)) := by
      rw [run_dots_add, run_dots_add, hbefore, hbetween]
      rfl
    rw [hjoined]
    exact hbeam _ (by decide) (by decide) rfl
  have hmask : (run written before).1.mask &&& 0x18 ≠ 0 := by
    have hshown : written.1.mask = 0x08 := rfl
    rw [← hbefore, mask_dots, hshown]
    decide
  have harrival : (run written before).1.beam.next.atPreRender = true := by
    rw [harriving]
    rfl
  have hwraps : Op.wraps .step last.1 = true := by
    rw [Op.wraps, hlast]
    rfl
  obtain ⟨hframe, hx, hy, htable⟩ := hdrawn before between hquiet harrival hmask hwraps
  exact ⟨ht, hframe, hx, hy, htable, (haddress between 0xE1 0x23).1⟩

end Ppu

end Nes
