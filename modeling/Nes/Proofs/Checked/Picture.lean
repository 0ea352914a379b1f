import Nes.Proofs.Checked.Boards
import Nes.Proofs.Checked.Renderer
import Nes.Proofs.Mainboard.Dots

/-!
# The picture unit, checked

A dot moves the counters of the beam by one, in sixteen bits each, and draws where a frame ends.
The beam stays on its lines and the frame keeps its size through every dot and every access, so
that no counter runs over and no pixel falls outside.
-/

namespace Nes

open Checked

namespace Ppu

/-! ### Dots -/

def finishFrameChecked (ppu : Ppu) (board : Board) : Checked Ppu := do
  let frame ← ppu.background.draw board.ppuReadChecked ppu.frame
  return { ppu with frame, frameReady := true }

/-- What happens at the first dot of the lines around the vertical blank. -/
def edges (ppu : Ppu) (scanline dot : Nat) : Ppu :=
  if scanline = Beam.vblankLine ∧ dot = 1 then ppu.enterVblank
  else if scanline = Beam.preRenderLine ∧ dot = 1 then ppu.leaveVblank
  else ppu

def stepChecked (ppu : Ppu) (board : Board) : Checked (Ppu × Board) := do
  let beam := ppu.beam
  let dot ← addIn 16 beam.dot 1
  let ppu := ppu.edges beam.scanline dot
  if dot = Beam.dotsPerLine then do
    let line ← addIn 16 beam.scanline 1
    if line = Beam.linesPerFrame then do
      let ppu ← finishFrameChecked { ppu with beam := ⟨0, 0, beam.frames + 1⟩ } board
      let board ← board.clockChecked
      return (ppu, board)
    else do
      let board ← if line < Beam.visibleLines then board.clockChecked else .ok board
      return ({ ppu with beam := ⟨line, 0, beam.frames⟩ }, board)
  else return ({ ppu with beam := { beam with dot } }, board)

/-! ### Registers -/

def fetchChecked (ppu : Ppu) (board : Board) (addr : UInt16) : Checked UInt8 :=
  if addr < 0x2000 then board.ppuReadChecked addr
  else ppu.vram.getChecked (addr &&& 0x3FFF).toNat

def readDataChecked (ppu : Ppu) (board : Board) : Checked (UInt8 × Ppu) := do
  let addr := ppu.dataAddr
  let scroll := ppu.scroll.advance ppu.dataStep
  if addr < 0x3F00 then do
    let buffer ← ppu.fetchChecked board addr
    return (ppu.buffer, { ppu with scroll, buffer })
  else do
    let under ← sub addr 0x1000
    let buffer ← ppu.fetchChecked board under
    let entry ← ppu.palette.getChecked (Palette.cell addr).toNat
    return (entry, { ppu with scroll, buffer })

def writeDataChecked (ppu : Ppu) (board : Board) (b : UInt8) : Checked (Ppu × Board) := do
  let addr := ppu.dataAddr
  let ppu := { ppu with scroll := ppu.scroll.advance ppu.dataStep }
  if addr < 0x2000 then do
    let board ← board.ppuWriteChecked addr b
    return (ppu, board)
  else if addr < 0x3F00 then do
    let vram ← ppu.vram.setChecked addr.toNat b
    return ({ ppu with vram }, board)
  else do
    let palette ← ppu.palette.setChecked (Palette.cell addr).toNat b
    return ({ ppu with palette }, board)

def readRegisterChecked (ppu : Ppu) (board : Board) (number : UInt8) : Checked (UInt8 × Ppu) :=
  if number &&& 7 = 7 then ppu.readDataChecked board else .ok (ppu.readRegister board number)

def writeRegisterChecked (ppu : Ppu) (board : Board) (number b : UInt8) : Checked (Ppu × Board) :=
  if number &&& 7 = 7 then ppu.writeDataChecked board b
  else .ok (ppu.writeRegister board number b)

/-! ### Nothing goes wrong -/

/-- The beam is on a line and the frame has its size. -/
structure Sound (ppu : Ppu) : Prop where
  beam : ppu.beam.Valid
  frame : ppu.frame.size = Frame.width * Frame.height

theorem sound_powerOn : powerOn.Sound := by
  refine ⟨⟨by decide, by decide⟩, ?_⟩
  show Frame.blank.size = _
  exact Array.size_replicate

variable {ppu : Ppu} {board : Board}

theorem finishFrameChecked_ok (h : ppu.frame.size = Frame.width * Frame.height) :
    ppu.finishFrameChecked board = .ok (ppu.finishFrame board) := by
  have hvram : 0 < ppu.background.vram.size := by
    show 0 < ppu.vram.toArray.size
    rw [Memory.size_toArray]
    decide
  have hbase : ppu.background.patternBase.toNat ≤ 0x1000 := by
    unfold background
    dsimp only
    split <;> decide
  unfold finishFrameChecked finishFrame
  rw [Background.draw_ok hvram hbase (fun addr _ => board.ppuReadChecked_ok addr) h]
  rfl

theorem edges_of_ne {scanline dot : Nat} (h : dot ≠ 1) : ppu.edges scanline dot = ppu := by
  simp [edges, h]

/-- Within a line a tick does what is due at the beam's new place. -/
theorem tick_within_line (h : ppu.beam.dot + 1 ≠ Beam.dotsPerLine) : ppu.tick board =
    { ppu.edges ppu.beam.scanline (ppu.beam.dot + 1) with
      beam := { ppu.beam with dot := ppu.beam.dot + 1 } } := by
  have hnext : ppu.beam.next = { ppu.beam with dot := ppu.beam.dot + 1 } := if_neg h
  unfold tick edges
  dsimp only
  rw [hnext]
  by_cases hdot : ppu.beam.dot = 0
  · by_cases hblank : ppu.beam.scanline = Beam.vblankLine
    · simp [Beam.atVblank, hdot, hblank, enterVblank, nmiEnabled]
    · by_cases hpre : ppu.beam.scanline = Beam.preRenderLine
      · simp only [Beam.atVblank, Beam.atPreRender, hdot, hpre, Beam.vblankLine,
          Beam.preRenderLine, leaveVblank, rendering]
        by_cases hdraw : testBits ppu.mask 0x18 = true <;> simp [hdraw]
      · simp [Beam.atVblank, Beam.atPreRender, Beam.atFrame, hdot, hblank, hpre]
  · simp [Beam.atVblank, Beam.atPreRender, Beam.atFrame, hdot]

theorem step_of_next {next : Beam} (h : ppu.beam.next = next) (hdot : next.dot = 0) :
    ppu.step board =
      (if next.scanline = 0 then finishFrame { ppu with beam := next } board
        else { ppu with beam := next },
        if next.scanline < Beam.visibleLines then board.clockScanline else board) := by
  have htick : ppu.tick board = if next.scanline = 0 then
      finishFrame { ppu with beam := next } board else { ppu with beam := next } := by
    simp [tick, h, Beam.atVblank, Beam.atPreRender, Beam.atFrame, hdot]
  have hbeam : (ppu.tick board).beam = next := (ppu.beam_tick board).trans h
  unfold step
  dsimp only
  rw [hbeam, htick]
  simp [Beam.atVisibleLine, hdot]

theorem stepChecked_ok (h : ppu.Sound) : ppu.stepChecked board = .ok (ppu.step board) := by
  have hline : ppu.beam.scanline < 262 := h.beam.1
  have hdot : ppu.beam.dot < 341 := h.beam.2
  have hclock := board.clockChecked_ok
  unfold stepChecked
  dsimp only
  rw [addIn_ok (by omega), ok_bind]
  by_cases hlast : ppu.beam.dot + 1 = Beam.dotsPerLine
  · rw [if_pos hlast, addIn_ok (by omega), ok_bind,
      edges_of_ne (by rw [hlast]; decide)]
    by_cases hframe : ppu.beam.scanline + 1 = Beam.linesPerFrame
    · have hnext : ppu.beam.next = ⟨0, 0, ppu.beam.frames + 1⟩ := by
        simp [Beam.next, hlast, hframe]
      have hdraw : finishFrameChecked { ppu with beam := ⟨0, 0, ppu.beam.frames + 1⟩ } board =
          .ok (finishFrame { ppu with beam := ⟨0, 0, ppu.beam.frames + 1⟩ } board) :=
        finishFrameChecked_ok h.frame
      rw [if_pos hframe, step_of_next hnext rfl, hdraw, ok_bind, hclock]
      rfl
    · have hnext : ppu.beam.next = ⟨ppu.beam.scanline + 1, 0, ppu.beam.frames⟩ := by
        simp [Beam.next, hlast, hframe]
      rw [if_neg hframe, step_of_next hnext rfl, hclock]
      dsimp only
      by_cases hvisible : ppu.beam.scanline + 1 < Beam.visibleLines
      · simp [hvisible]
      · simp [hvisible]
  · have hinside : ({ ppu.beam with dot := ppu.beam.dot + 1 } : Beam).atVisibleLine = false := by
      simp [Beam.atVisibleLine]
    rw [if_neg hlast]
    unfold step
    rw [tick_within_line hlast]
    dsimp only
    rw [hinside, if_neg Bool.false_ne_true]
    rfl

-- Without `Sound` a dot can go wrong.
example (board : Board) : stepChecked { beam := ⟨0, 0xFFFF, 0⟩ } board = .error .overflow := rfl

/-! ### The data register -/

theorem fetchChecked_ok (addr : UInt16) :
    ppu.fetchChecked board addr = .ok (ppu.fetch board addr) := by
  have hcell : (addr &&& 0x3FFF).toNat = addr.toNat % 0x4000 := by
    rw [UInt16.toNat_and]
    exact Nat.and_two_pow_sub_one_eq_mod _ 14
  unfold fetchChecked fetch
  split
  · exact board.ppuReadChecked_ok addr
  · exact Memory.getChecked_ok _ hcell

theorem readDataChecked_ok : ppu.readDataChecked board = .ok (ppu.readData board) := by
  unfold readDataChecked readData
  dsimp only
  split
  case isTrue =>
    rw [fetchChecked_ok]
    rfl
  case isFalse h =>
    have hbase : ¬ ppu.dataAddr < 0x1000 := by
      intro hlow
      exact h (UInt16.lt_trans hlow (by decide))
    rw [sub_base hbase, ok_bind, fetchChecked_ok, ok_bind,
      Memory.getChecked_ok _ (Palette.cell_eq_mod _)]
    rfl

theorem writeDataChecked_ok (h : board.Sound) (b : UInt8) :
    ppu.writeDataChecked board b = .ok (ppu.writeData board b) := by
  have hcell : ppu.dataAddr.toNat = ppu.dataAddr.toNat % 0x4000 := by
    have hbits := ppu.toNat_dataAddr
    omega
  unfold writeDataChecked writeData
  dsimp only
  split
  · rw [board.ppuWriteChecked_ok _ _ h]
    rfl
  split
  · rw [Memory.setChecked_ok _ _ hcell]
    rfl
  · rw [Memory.setChecked_ok _ _ (Palette.cell_eq_mod _)]
    rfl

theorem readRegisterChecked_ok (number : UInt8) :
    ppu.readRegisterChecked board number = .ok (ppu.readRegister board number) := by
  unfold readRegisterChecked
  split
  case isTrue h =>
    rw [readDataChecked_ok]
    unfold readRegister
    rw [h]
    rfl
  case isFalse => rfl

theorem writeRegisterChecked_ok (h : board.Sound) (number b : UInt8) :
    ppu.writeRegisterChecked board number b = .ok (ppu.writeRegister board number b) := by
  unfold writeRegisterChecked
  split
  case isTrue hn =>
    rw [writeDataChecked_ok h]
    unfold writeRegister
    rw [hn]
    rfl
  case isFalse => rfl

/-! ### What is kept -/

theorem Sound.tick (h : ppu.Sound) : (ppu.tick board).Sound := by
  rw [tick_eq]
  refine ⟨Beam.valid_next _ h.beam, ?_⟩
  dsimp only
  split
  · exact Background.size_render _ _
  · exact h.frame

theorem Sound.readRegister (h : ppu.Sound) (number : UInt8) :
    (ppu.readRegister board number).2.Sound := by
  obtain ⟨_, _, hread⟩ := ppu.readRegister_eq board number
  rw [hread]
  exact ⟨h.beam, h.frame⟩

theorem Sound.writeRegister (h : ppu.Sound) (number b : UInt8) :
    (ppu.writeRegister board number b).1.Sound := by
  obtain ⟨_, _, _, _, _, hwrite, -⟩ := ppu.writeRegister_eq board number b
  rw [hwrite]
  exact ⟨h.beam, h.frame⟩

end Ppu

theorem Board.Sound.writeRegister {board : Board} (h : board.Sound) (ppu : Ppu)
    (number b : UInt8) : (ppu.writeRegister board number b).2.Sound := by
  obtain ⟨_, _, _, _, _, hwrite, rfl | ⟨addr, rfl⟩⟩ := ppu.writeRegister_eq board number b
  · rw [hwrite]
    exact h
  · rw [hwrite]
    exact h.ppuWrite addr b

end Nes
