import Nes.Cartridge
import Nes.Proofs.Except

/-!
# Loading an image

An image that is long enough is taken apart at offsets that its header settles.  The board then
holds the parts as they are, and a trainer changes nothing but the memory at `$6000`.  A header put
before two memories of the sizes that it names is such an image.
-/

namespace Nes.Cartridge

theorem chr_size_of_parse {data : Array UInt8} {image : Image} (h : Image.parse data = .ok image) :
    image.chr.size = image.header.chrSize := by
  unfold Image.parse at h
  obtain ⟨header, -, h⟩ := bind_ok h
  obtain ⟨trainer, -, h⟩ := bind_ok h
  obtain ⟨prg, -, h⟩ := bind_ok h
  obtain ⟨chr, hchr, h⟩ := bind_ok h
  cases h
  exact Image.size_of_part hchr

/-- The parts of an image that is long enough for its header. -/
theorem parse_of_size {data : Array UInt8} {header : Header} (hh : Header.parse data = .ok header)
    (hs : 16 + header.trainerSize + header.prgSize + header.chrSize ≤ data.size) :
    Image.parse data = .ok {
      header
      trainer := data.extract 16 (16 + header.trainerSize)
      prg := data.extract (16 + header.trainerSize) (16 + header.trainerSize + header.prgSize)
      chr := data.extract (16 + header.trainerSize + header.prgSize)
        (16 + header.trainerSize + header.prgSize + header.chrSize) } := by
  have ht : Image.part data .trainer Header.size header.trainerSize =
      .ok (data.extract 16 (16 + header.trainerSize)) := by
    unfold Image.part Header.size
    rw [if_pos (by omega)]
  have hp : Image.part data .prg (Header.size + header.trainerSize) header.prgSize =
      .ok (data.extract (16 + header.trainerSize) (16 + header.trainerSize + header.prgSize)) := by
    unfold Image.part Header.size
    rw [if_pos (by omega)]
  have hc : Image.part data .chr (Header.size + header.trainerSize + header.prgSize)
      header.chrSize = .ok (data.extract (16 + header.trainerSize + header.prgSize)
        (16 + header.trainerSize + header.prgSize + header.chrSize)) := by
    unfold Image.part Header.size
    rw [if_pos (by omega)]
  unfold Image.parse
  rw [hh]
  show (Image.part data .trainer Header.size header.trainerSize >>= _) = _
  rw [ht]
  show (Image.part data .prg (Header.size + header.trainerSize) header.prgSize >>= _) = _
  rw [hp]
  show (Image.part data .chr (Header.size + header.trainerSize + header.prgSize)
    header.chrSize >>= _) = _
  rw [hc]
  rfl

theorem loaded {data : Array UInt8} {c : Cartridge} (h : ofBytes data = .ok c) :
    ∃ image board, Image.parse data = .ok image ∧ boardOf? image = some board ∧
      c.header = image.header ∧
      (c.board = board ∨ c.board = (board.loadTrainer image.trainer).2) := by
  obtain ⟨image, hparse, h⟩ := bind_ok h
  unfold ofImage at h
  cases hboard : boardOf? image with
  | none =>
    rw [hboard] at h
    cases h
  | some board =>
    rw [hboard] at h
    refine ⟨image, board, hparse, hboard, ?_⟩
    by_cases ht : image.header.trainer = true
    · simp only [ht, ite_true] at h
      cases h
      exact ⟨rfl, Or.inr rfl⟩
    · simp only [ht] at h
      cases h
      exact ⟨rfl, Or.inl rfl⟩

theorem boardOf?_cases {image : Image} {board : Board} (h : boardOf? image = some board) :
    (image.header.mapper = 0 ∧
      board = .nrom ⟨image.prg, chrOf image, image.header.mirroring⟩) ∨
    (image.header.mapper = 2 ∧
      board = .uxrom (.powerOn image.prg (chrOf image).bytes image.header.mirroring)) ∨
    (image.header.mapper = 4 ∧
      board = .mmc3 (.powerOn image.prg (chrOf image) image.header.mirroring)) := by
  unfold boardOf? at h
  split at h
  · exact Or.inl ⟨by assumption, (Option.some.inj h).symm⟩
  · exact Or.inr (Or.inl ⟨by assumption, (Option.some.inj h).symm⟩)
  · exact Or.inr (Or.inr ⟨by assumption, (Option.some.inj h).symm⟩)
  · cases h

theorem load_of_size {data : Array UInt8} {header : Header} {board : Board} {prg chr : Nat}
    (hh : Header.parse data = .ok header) (ht : header.trainer = false)
    (hprg : header.prgSize = prg) (hchr : header.chrSize = chr)
    (hs : 16 + prg + chr ≤ data.size)
    (hboard : boardOf? ⟨header, data.extract 16 16, data.extract 16 (16 + prg),
      data.extract (16 + prg) (16 + prg + chr)⟩ = some board) :
    ofBytes data = .ok ⟨header, none, board⟩ := by
  have hzero : header.trainerSize = 0 := by simp [Header.trainerSize, ht]
  have himage := parse_of_size hh (by rw [hzero, hprg, hchr]; exact hs)
  rw [hzero, hprg, hchr, Nat.add_zero] at himage
  unfold ofBytes
  rw [himage]
  show ofImage _ = _
  unfold ofImage
  rw [hboard]
  simp [ht]

/-! ### Images put together from their parts -/

theorem parts_of_append (before prg chr : Array UInt8) :
    (before ++ prg ++ chr).extract before.size (before.size + prg.size) = prg ∧
    (before ++ prg ++ chr).extract (before.size + prg.size)
      (before.size + prg.size + chr.size) = chr := by
  constructor
  · rw [Array.append_assoc]
    simp [Array.extract_append]
  · have hstart : before.size + prg.size = (before ++ prg).size := by simp
    rw [hstart]
    generalize before ++ prg = front
    simp [Array.extract_append]

/-- The header of an NROM image with one unit of each kind of memory. -/
def nromBytes : Array UInt8 := #[0x4E, 0x45, 0x53, 0x1A, 1, 1, 0, 0, 0, 0, 0, 0, 0, 0, 0, 0]

def nromHeader : Header where
  prgUnits := 1
  chrUnits := 1
  mapper := 0
  mirroring := .horizontal
  battery := false
  trainer := false

theorem getD_append_of_lt {a b : Array UInt8} {i : Nat} (h : i < a.size) (d : UInt8) :
    (a ++ b).getD i d = a.getD i d := by
  rw [Array.getD_eq_getD_getElem?, Array.getD_eq_getD_getElem?, Array.getElem?_append_left h]

theorem parse_nrom (rest : Array UInt8) : Header.parse (nromBytes ++ rest) = .ok nromHeader := by
  have hsize : ¬ (nromBytes ++ rest).size < Header.size := by
    rw [Array.size_append]
    exact Nat.not_lt.2 (Nat.le_add_right 16 rest.size)
  unfold Header.parse
  rw [if_neg hsize]
  rw [getD_append_of_lt (by decide), getD_append_of_lt (by decide),
    getD_append_of_lt (by decide), getD_append_of_lt (by decide)]
  rfl

theorem load_nrom {prg chr : Array UInt8} (hprg : prg.size = 0x4000) (hchr : chr.size = 0x2000) :
    ofBytes (nromBytes ++ prg ++ chr) =
      .ok ⟨nromHeader, none, .nrom ⟨prg, ⟨chr, false⟩, .horizontal⟩⟩ := by
  have hunit : (1 : UInt8).toNat = 1 := by decide
  have hparse : Header.parse (nromBytes ++ prg ++ chr) = .ok nromHeader := by
    rw [Array.append_assoc]
    exact parse_nrom _
  obtain ⟨hp, hc⟩ := parts_of_append nromBytes prg chr
  rw [hprg] at hp hc
  rw [hchr] at hc
  refine load_of_size hparse rfl (congrArg (· * 0x4000) hunit) (congrArg (· * 0x2000) hunit) ?_ ?_
  · rw [Array.size_append, Array.size_append, hprg, hchr]
    exact Nat.le_refl _
  · rw [show nromBytes.size = 16 from rfl] at hp hc
    rw [hp, hc]
    rfl

end Nes.Cartridge
