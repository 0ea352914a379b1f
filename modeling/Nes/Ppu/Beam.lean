/-!
# The beam

The picture unit draws 341 dots on each of 262 lines and then starts the next frame.  The
position moves by one dot at a time; the number of dots since power on is a function of it.

`next` is the counting in `step` of famicore's `PPU`, its `cycle` being `dot`.
-/

namespace Nes

/-- Where the beam is, and how many frames it has finished. -/
structure Beam where
  scanline : Nat := 0
  dot : Nat := 0
  frames : Nat := 0
deriving DecidableEq, Repr, Inhabited

namespace Beam

def dotsPerLine : Nat := 341
def linesPerFrame : Nat := 262
def visibleLines : Nat := 240
def vblankLine : Nat := 241
def preRenderLine : Nat := 261

@[inline] def next (b : Beam) : Beam :=
  if b.dot + 1 = dotsPerLine then
    if b.scanline + 1 = linesPerFrame then ⟨0, 0, b.frames + 1⟩
    else ⟨b.scanline + 1, 0, b.frames⟩
  else ⟨b.scanline, b.dot + 1, b.frames⟩

def Valid (b : Beam) : Prop := b.scanline < linesPerFrame ∧ b.dot < dotsPerLine

/-- The dots that led here. -/
def elapsed (b : Beam) : Nat :=
  (b.frames * linesPerFrame + b.scanline) * dotsPerLine + b.dot

theorem valid_next (b : Beam) (h : b.Valid) : b.next.Valid := by
  simp only [Valid, linesPerFrame, dotsPerLine] at *
  by_cases h1 : b.dot + 1 = 341 <;> by_cases h2 : b.scanline + 1 = 262 <;>
    simp [next, linesPerFrame, dotsPerLine, h1, h2] <;> omega

theorem elapsed_next (b : Beam) : b.next.elapsed = b.elapsed + 1 := by
  by_cases h1 : b.dot + 1 = 341 <;> by_cases h2 : b.scanline + 1 = 262 <;>
    simp [next, elapsed, linesPerFrame, dotsPerLine, h1, h2] <;> omega

/-! ### Events -/

@[inline] def atVblank (b : Beam) : Bool := b.dot == 1 && b.scanline == vblankLine

@[inline] def atPreRender (b : Beam) : Bool := b.dot == 1 && b.scanline == preRenderLine

@[inline] def atFrame (b : Beam) : Bool := b.dot == 0 && b.scanline == 0

@[inline] def atVisibleLine (b : Beam) : Bool := b.dot == 0 && b.scanline < visibleLines

end Beam

end Nes
