import Nes.Proofs.History
import Nes.Proofs.Ppu.Picture
import Nes.Proofs.Ppu.Run

/-!
# Finished frames

One dot out of 89342 finishes a frame: the one that takes the beam from the last place of the last
line to the first place of the first.  It draws the whole picture anew from what the unit and the
board then hold, counts the frame and raises the frame edge, and nothing else touches the picture
or the count.  All pixels that were ever drawn are opaque colours of the master palette, and the
bytes handed out for a picture give it back.
-/

namespace Nes

/-! ### Colours and bytes -/

/-- The pixel of the four bytes that stand for it. -/
def Frame.pixel (red green blue alpha : UInt8) : Pixel :=
  UInt32.ofNat (alpha.toNat * 0x1000000 + red.toNat * 0x10000 + green.toNat * 0x100 + blue.toNat)

/-- The picture that bytes stand for, four to a pixel. -/
def Frame.ofRgba : List UInt8 → List Pixel
  | red :: green :: blue :: alpha :: rest => Frame.pixel red green blue alpha :: ofRgba rest
  | _ => []

namespace Frame

theorem pixel_channels (p : Pixel) :
    pixel (p / 0x10000).toUInt8 (p / 0x100).toUInt8 p.toUInt8 (p / 0x1000000).toUInt8 = p := by
  have hlt := p.toNat_lt
  apply UInt32.toNat_inj.1
  simp only [pixel, UInt32.toNat_ofNat', UInt32.toNat_toUInt8, UInt32.toNat_div,
    UInt32.reduceToNat]
  omega

theorem toList_rgba (frame : Frame) :
    frame.rgba.toList = frame.toList.flatMap fun p => (channels p).toList := by
  simp [rgba]

theorem ofRgba_rgba (frame : Frame) : ofRgba frame.rgba.toList = frame.toList := by
  rw [toList_rgba]
  induction frame.toList with
  | nil => rfl
  | cons p rest ih =>
    rw [List.flatMap_cons]
    show pixel _ _ _ _ :: ofRgba (rest.flatMap _) = _
    rw [pixel_channels, ih]

theorem size_rgba (frame : Frame) : frame.rgba.size = 4 * frame.size := by
  rw [← Array.length_toList, toList_rgba, ← Array.length_toList]
  induction frame.toList with
  | nil => rfl
  | cons p rest ih =>
    rw [List.flatMap_cons, List.length_append, ih, List.length_cons]
    show 4 + _ = _
    omega

end Frame

/-- An opaque colour of the master palette. -/
def Palette.IsColour (p : Pixel) : Prop := ∃ i : Fin 64, p = 0xFF000000 ||| master[i]

theorem Palette.isColour_colour (entry : UInt8) : IsColour (colour entry) :=
  ⟨⟨entry.toNat % 64, Nat.mod_lt _ (by decide)⟩, rfl⟩

namespace Background

variable (bg : Background) (chr : UInt16 → UInt8)

theorem isColour_paint (group value : UInt8) : Palette.IsColour (bg.paint group value) := by
  unfold paint
  split
  · exact Palette.isColour_colour _
  · exact Palette.isColour_colour _

theorem isColour_line (py : Nat) : ∀ p ∈ bg.line chr py, Palette.IsColour p := by
  intro p hp
  obtain ⟨k, -, htile⟩ := List.mem_flatMap.1 (List.mem_of_mem_drop (List.mem_of_mem_take hp))
  obtain ⟨i, -, rfl⟩ := List.mem_map.1 htile
  exact bg.isColour_paint _ _

theorem isColour_render : ∀ p ∈ bg.render chr, Palette.IsColour p := by
  intro p hp
  obtain ⟨py, -, hline⟩ := List.mem_flatMap.1 (List.mem_toArray.1 hp)
  exact bg.isColour_line chr py p hline

end Background

/-! ### The last dot of a frame -/

theorem Beam.atFrame_next (b : Beam) :
    b.next.atFrame = (b.scanline == 261 && b.dot == 340) := by
  obtain ⟨scanline, dot, frames⟩ := b
  unfold next dotsPerLine linesPerFrame
  dsimp only
  split
  case isTrue hdot =>
    obtain rfl : dot = 340 := by omega
    split
    case isTrue hline =>
      obtain rfl : scanline = 261 := by omega
      rfl
    case isFalse hline =>
      have hne : (scanline == 261) = false := beq_false_of_ne (by omega)
      rw [hne]
      rfl
  case isFalse hdot =>
    have hne : (dot == 340) = false := beq_false_of_ne (by omega)
    rw [hne, Bool.and_false]
    rfl

namespace Ppu

def Op.takesFrame : Op → Bool
  | takeFrameReady => true
  | _ => false

/-- The operation is the dot that finishes a frame. -/
def Op.wraps (op : Op) (ppu : Ppu) : Bool :=
  op.isStep && (ppu.beam.scanline == 261 && ppu.beam.dot == 340)

theorem wraps_step (ppu : Ppu) : Op.wraps .step ppu = ppu.beam.next.atFrame :=
  ppu.beam.atFrame_next.symm

theorem frame_tick (ppu : Ppu) (board : Board) : (ppu.tick board).frame =
    if ppu.beam.next.atFrame then ppu.background.render board.ppuRead else ppu.frame := by
  rw [tick_eq]

theorem frame_apply (s : Picture) (op : Op) : (apply s op).1.frame =
    if op.wraps s.1 then s.1.background.render s.2.ppuRead else s.1.frame := by
  cases op with
  | step =>
    rw [wraps_step]
    exact s.1.frame_tick s.2
  | readRegister number =>
    obtain ⟨_, _, hread⟩ := s.1.readRegister_eq s.2 number
    rw [apply, hread]
    rfl
  | writeRegister number b =>
    obtain ⟨_, _, _, _, _, hwrite, -⟩ := s.1.writeRegister_eq s.2 number b
    rw [apply, hwrite]
    rfl
  | takeNmi => rw [apply, takeNmi_eq]; rfl
  | takeFrameReady => rw [apply, takeFrameReady_eq]; rfl
  | onBoard change => rfl

theorem apply_of_wraps (s : Picture) {op : Op} (h : op.wraps s.1 = true) :
    (apply s op).1 = { s.1 with
      beam := ⟨0, 0, s.1.beam.frames + 1⟩
      frame := s.1.background.render s.2.ppuRead
      frameReady := true } := by
  simp only [Op.wraps, Bool.and_eq_true, beq_iff_eq] at h
  obtain ⟨hstep, hline, hdot⟩ := h
  obtain rfl := Op.eq_step hstep
  have hnext : s.1.beam.next = ⟨0, 0, s.1.beam.frames + 1⟩ := by
    simp [Beam.next, hline, hdot, Beam.dotsPerLine, Beam.linesPerFrame]
  have hready : (s.1.frameReady || s.1.beam.next.atFrame) = true := by
    rw [hnext]
    exact Bool.or_true _
  show s.1.tick s.2 = _
  rw [tick_eq, hready, hnext]
  rfl

theorem frames_apply (s : Picture) (op : Op) :
    (apply s op).1.beam.frames = s.1.beam.frames + (op.wraps s.1).toNat := by
  cases hop : op.isStep with
  | false =>
    rw [beam_apply_other s hop, Op.wraps, hop]
    rfl
  | true =>
    obtain rfl := Op.eq_step hop
    rw [beam_apply_step, Beam.frames_next, wraps_step]
    cases s.1.beam.next.atFrame <;> rfl

theorem frameReady_apply (s : Picture) (op : Op) :
    (apply s op).1.frameReady = (op.wraps s.1 || s.1.frameReady && !op.takesFrame) := by
  cases op with
  | step =>
    have htakes : Op.takesFrame .step = false := rfl
    rw [wraps_step, htakes, Bool.not_false, Bool.and_true, Bool.or_comm]
    exact s.1.frameReady_tick s.2
  | readRegister number =>
    rw [apply, (s.1.clocks_readRegister s.2 number).2]
    simp [Op.wraps, Op.isStep, Op.takesFrame]
  | writeRegister number b =>
    rw [apply, (s.1.clocks_writeRegister s.2 number b).2]
    simp [Op.wraps, Op.isStep, Op.takesFrame]
  | takeNmi => simp [apply, takeNmi_eq, Op.wraps, Op.isStep, Op.takesFrame]
  | takeFrameReady => simp [apply, takeFrameReady_eq, Op.wraps, Op.isStep, Op.takesFrame]
  | onBoard change => simp [apply, Op.wraps, Op.isStep, Op.takesFrame]

/-! ### Runs -/

/-- The frames finished by a run. -/
def wraps (s : Picture) : List Op → Nat
  | [] => 0
  | op :: ops => (op.wraps s.1).toNat + wraps (apply s op) ops

theorem wraps_snoc (s : Picture) (ops : List Op) (op : Op) :
    wraps s (ops ++ [op]) = wraps s ops + (op.wraps (run s ops).1).toNat := by
  induction ops generalizing s with
  | nil =>
    show _ + 0 = 0 + _
    rw [Nat.add_comm]
    rfl
  | cons first ops ih =>
    have hrun : run s (first :: ops) = run (apply s first) ops := rfl
    rw [List.cons_append, wraps, ih, wraps, hrun, Nat.add_assoc]

theorem frames_run (s : Picture) (ops : List Op) :
    (run s ops).1.beam.frames = s.1.beam.frames + wraps s ops := by
  induction ops using List.reverseRecOn with
  | nil => rfl
  | append_singleton ops op ih => rw [run_snoc, frames_apply, ih, wraps_snoc, Nat.add_assoc]

theorem frame_of_no_wrap (s : Picture) (ops : List Op) (h : wraps s ops = 0) :
    (run s ops).1.frame = s.1.frame := by
  induction ops using List.reverseRecOn with
  | nil => rfl
  | append_singleton ops op ih =>
    rw [wraps_snoc, Nat.add_eq_zero_iff, Bool.toNat_eq_zero] at h
    rw [run_snoc, frame_apply, h.2, ih h.1]
    rfl

/-- The picture after a run comes from the dot that finished the last frame. -/
theorem frame_origin (s : Picture) (ops : List Op) (h : 0 < wraps s ops) :
    ∃ before since, ops = before ++ .step :: since ∧
      Op.wraps .step (run s before).1 = true ∧ wraps (run s (before ++ [.step])) since = 0 ∧
      (run s ops).1.frame = (run s before).1.background.render (run s before).2.ppuRead := by
  induction ops using List.reverseRecOn with
  | nil => cases h
  | append_singleton ops op ih =>
    rw [run_snoc, frame_apply]
    cases hop : op.wraps (run s ops).1 with
    | true =>
      have hstep : op.isStep = true := (Bool.and_eq_true_iff.1 hop).1
      obtain rfl := Op.eq_step hstep
      exact ⟨ops, [], rfl, hop, rfl, if_pos rfl⟩
    | false =>
      rw [wraps_snoc, hop] at h
      obtain ⟨before, since, rfl, hwraps, hnone, hframe⟩ := ih h
      refine ⟨before, since ++ [op], by simp, hwraps, ?_, ?_⟩
      · have hrun : run s (before ++ .step :: since) = run (run s (before ++ [.step])) since := by
          rw [← run_append, List.append_assoc]
          rfl
        rw [wraps_snoc, hnone, ← hrun, hop]
        rfl
      · rw [if_neg Bool.false_ne_true, hframe]

theorem frameReady_run (board : Board) (ops : List Op) :
    (run (powerOn, board) ops).1.frameReady = true ↔
      History.Since (fun before op => op.wraps (run (powerOn, board) before).1 = true)
        (fun op => op.takesFrame = false) ops := by
  refine History.iff_since (fun ops => (run (powerOn, board) ops).1.frameReady = true)
    Bool.false_ne_true (fun ops op => ?_) ops
  rw [run_snoc, frameReady_apply, Bool.or_eq_true, Bool.and_eq_true, Bool.not_eq_true']

theorem takeFrameReady_answer (ppu : Ppu) : ppu.takeFrameReady.1 = ppu.frameReady := by
  unfold takeFrameReady
  cases ppu.frameReady <;> rfl

theorem size_frame_run (board : Board) (ops : List Op) :
    (run (powerOn, board) ops).1.frame.size = Frame.width * Frame.height := by
  rcases Nat.eq_zero_or_pos (wraps (powerOn, board) ops) with hnone | hsome
  · rw [frame_of_no_wrap _ ops hnone]
    exact Array.size_replicate
  · obtain ⟨_, _, -, -, -, hframe⟩ := frame_origin _ ops hsome
    rw [hframe]
    exact Background.size_render _ _

/-- In every run from power on the picture is blank until a frame is finished, and from then on it
is the one drawn by the dot that finished the last frame, from what the unit and the board held
there.  That dot moves the beam, counts the frame and raises the edge, and nothing else touches the
picture or the count.  The edge is up if a frame was finished since it was last taken. -/
theorem frame_replaced_at_last_dot (board : Board) (ops : List Op) :
    let start : Picture := (powerOn, board)
    let s := run start ops
    let drawn (t : Picture) : Frame := Background.render
      { vram := t.1.vram.toArray, palette := t.1.palette
        v := t.1.scroll.v, fineX := t.1.scroll.fineX
        patternBase := if testBits t.1.control 0x10 then 0x1000 else 0 } t.2.ppuRead
    (∀ op, if op.wraps s.1 then
        (apply s op).1 = { s.1 with
          beam := ⟨0, 0, s.1.beam.frames + 1⟩, frame := drawn s, frameReady := true }
      else (apply s op).1.frame = s.1.frame ∧ (apply s op).1.beam.frames = s.1.beam.frames) ∧
    s.1.beam.frames = wraps start ops ∧
    (wraps start ops = 0 → s.1.frame = Array.replicate 61440 0) ∧
    (0 < wraps start ops → ∃ before since, ops = before ++ .step :: since ∧
      Op.wraps .step (run start before).1 = true ∧ wraps (run start (before ++ [.step])) since = 0 ∧
      s.1.frame = drawn (run start before)) ∧
    (s.1.takeFrameReady.1 = true ↔
      History.Since (fun before op => op.wraps (run start before).1 = true)
        (fun op => op.takesFrame = false) ops) ∧
    (0 < wraps start ops → ∀ p ∈ s.1.frame, Palette.IsColour p) ∧
    s.1.frame.rgba.size = 245760 ∧ Frame.ofRgba s.1.frame.rgba.toList = s.1.frame.toList := by
  intro start s drawn
  refine ⟨fun op => ?_, ?_, fun hnone => frame_of_no_wrap start ops hnone, frame_origin start ops,
    ?_, fun hsome p hp => ?_, ?_, s.1.frame.ofRgba_rgba⟩
  · split
    case isTrue hwraps => exact apply_of_wraps s hwraps
    case isFalse hwraps =>
      rw [frame_apply, frames_apply, if_neg hwraps, Bool.eq_false_iff.2 hwraps]
      exact ⟨rfl, rfl⟩
  · rw [frames_run]
    exact Nat.zero_add _
  · rw [takeFrameReady_answer]
    exact frameReady_run board ops
  · obtain ⟨_, _, -, -, -, hframe⟩ := frame_origin start ops hsome
    rw [hframe] at hp
    exact Background.isColour_render _ _ p hp
  · rw [Frame.size_rgba, size_frame_run]
    rfl

end Ppu

end Nes
