import Nes.Proofs.Cartridge.Loading
import Nes.Proofs.Cartridge.Run

/-!
# Which memories of a cartridge are read only

Program memory is never written.  Character memory stays as it was loaded exactly when the header
gives the cartridge some, with one exception: on a UxROM board the chip counts as writable by its
size, and eight kilobytes from the image are as many as the memory of a board without any.
-/

namespace Nes.Cartridge

/-! ### Writable chips -/

theorem chrIsRam_iff (h : Header) : h.chrIsRam = true ↔ h.chrUnits = 0 := by
  simp only [Header.chrIsRam, beq_iff_eq]

theorem chrOf_size {image : Image} (hsize : image.chr.size = image.header.chrSize) :
    (chrOf image).bytes.size =
      if image.header.chrUnits = 0 then 0x2000 else image.header.chrUnits.toNat * 0x2000 := by
  unfold chrOf
  by_cases hram : image.header.chrUnits = 0
  · rw [if_pos ((chrIsRam_iff _).2 hram), if_pos hram, Array.size_replicate]
  · rw [if_neg (fun h => hram ((chrIsRam_iff _).1 h)), if_neg hram]
    exact hsize

theorem chrOf_writable (image : Image) :
    (chrOf image).writable = true ↔ image.header.chrUnits = 0 := by
  unfold chrOf
  by_cases hram : image.header.chrUnits = 0
  · rw [if_pos ((chrIsRam_iff _).2 hram)]
    exact iff_of_true rfl hram
  · rw [if_neg (fun h => hram ((chrIsRam_iff _).1 h))]
    exact iff_of_false (by simp) hram

theorem one_unit_iff (u : UInt8) : u.toNat * 0x2000 = 0x2000 ↔ u = 1 := by
  rw [← UInt8.toNat_inj]
  show u.toNat * 0x2000 = 0x2000 ↔ u.toNat = 1
  omega

/-- On a UxROM board the length of the chip decides, on the others the header. -/
theorem writable_of_boardOf? {image : Image} {board : Board}
    (hsize : image.chr.size = image.header.chrSize) (h : boardOf? image = some board) :
    board.chr.writable = true ↔
      image.header.chrUnits = 0 ∨ (image.header.mapper = 2 ∧ image.header.chrUnits = 1) := by
  rcases boardOf?_cases h with ⟨hm, rfl⟩ | ⟨hm, rfl⟩ | ⟨hm, rfl⟩
  · have hne : image.header.mapper ≠ 2 := by
      rw [hm]
      decide
    simp only [hne, false_and, or_false]
    exact chrOf_writable image
  · show ((chrOf image).bytes.size == 0x2000) = true ↔ _
    rw [beq_iff_eq, chrOf_size hsize]
    by_cases hram : image.header.chrUnits = 0
    · simp [hram]
    · simp only [hram, ite_false, hm, true_and, false_or]
      exact one_unit_iff _
  · have hne : image.header.mapper ≠ 2 := by
      rw [hm]
      decide
    simp only [hne, false_and, or_false]
    exact chrOf_writable image

theorem chr_bytes_of_boardOf? {image : Image} {board : Board} (h : boardOf? image = some board) :
    board.chr.bytes = (chrOf image).bytes := by
  rcases boardOf?_cases h with ⟨-, rfl⟩ | ⟨-, rfl⟩ | ⟨-, rfl⟩ <;> rfl

/-- As loaded, a board shows the first byte of its character memory at the lowest address. -/
theorem chrOffset_of_boardOf? {image : Image} {board : Board} (h : boardOf? image = some board) :
    board.chrOffset 0 = 0 := by
  rcases boardOf?_cases h with ⟨-, rfl⟩ | ⟨-, rfl⟩ | ⟨-, rfl⟩
  · rfl
  · rfl
  · show (Mmc3.powerOn image.prg (chrOf image) image.header.mirroring).chrOffset 0 = 0
    simp [Mmc3.chrOffset, Mmc3.powerOn, Mmc3.Windows.powerOn]

theorem loaded_chr {data : Array UInt8} {c : Cartridge} (h : ofBytes data = .ok c) :
    (c.board.chr.writable = true ↔
      c.header.chrUnits = 0 ∨ (c.header.mapper = 2 ∧ c.header.chrUnits = 1)) ∧
    0 < c.board.chr.bytes.size ∧ c.board.chrOffset 0 = 0 := by
  obtain ⟨image, board, hparse, hboard, hheader, hc⟩ := loaded h
  have hsize := chr_size_of_parse hparse
  have hchr : c.board.chr = board.chr := by
    rcases hc with hc | hc
    · rw [hc]
    · rw [hc, Board.chr_loadTrainer]
  have hoffset : c.board.chrOffset 0 = board.chrOffset 0 := by
    rcases hc with hc | hc
    · rw [hc]
    · rw [hc, Board.chrOffset_loadTrainer]
  refine ⟨?_, ?_, ?_⟩
  · rw [hchr, hheader]
    exact writable_of_boardOf? hsize hboard
  · rw [hchr, chr_bytes_of_boardOf? hboard, chrOf_size hsize]
    split
    case isTrue => decide
    case isFalse hne =>
      have hpos : image.header.chrUnits.toNat ≠ 0 := fun h0 => hne (UInt8.toNat_inj.1 h0)
      omega
  · rw [hoffset, chrOffset_of_boardOf? hboard]

/-! ### The write that shows a chip to be writable -/

theorem write_ne_self {chr : Chr} (hw : chr.writable = true) (hpos : 0 < chr.bytes.size) :
    (chr.write 0 (chr.bytes[0] + 1)).bytes ≠ chr.bytes := by
  obtain ⟨bytes, writable⟩ := chr
  simp only at hw hpos
  subst hw
  intro heq
  have hcell := congrArg (fun a : Array UInt8 => a[0]?) heq
  simp only [Chr.write, Array.getElem?_setIfInBounds_self_of_lt hpos,
    Array.getElem?_eq_getElem hpos, Option.some.injEq] at hcell
  have hnat := congrArg UInt8.toNat hcell
  rw [UInt8.toNat_add] at hnat
  have hlt := (bytes[0]).toNat_lt
  have hone : (1 : UInt8).toNat = 1 := rfl
  omega

/-- Program memory keeps its bytes through every run of every cartridge that loads, and character
memory does so exactly when the header gives the cartridge some, other than eight kilobytes on a
UxROM board. -/
theorem rom_unchanged_iff {data : Array UInt8} {c : Cartridge} (h : ofBytes data = .ok c) :
    (∀ ops : List Op, (c.run ops).board.prgRom = c.board.prgRom) ∧
    ((∀ ops : List Op, (c.run ops).board.chr.bytes = c.board.chr.bytes) ↔
      c.header.chrUnits ≠ 0 ∧ ¬ (c.header.mapper = 2 ∧ c.header.chrUnits = 1)) := by
  obtain ⟨hwritable, hpos, hoffset⟩ := loaded_chr h
  refine ⟨prgRom_run c, ?_⟩
  constructor
  · intro hkeep
    rw [← not_or, ← hwritable]
    intro hw
    have hrun := hkeep [.ppuWrite 0 (c.board.chr.bytes[0] + 1)]
    have hstep : (c.run [.ppuWrite 0 (c.board.chr.bytes[0] + 1)]).board.chr = _ :=
      Board.chr_ppuWrite c.board 0 (c.board.chr.bytes[0] + 1)
    rw [hstep, if_pos (by decide), hoffset] at hrun
    exact write_ne_self hw hpos hrun
  · intro hrom ops
    have hnot : c.board.chr.writable = false := by
      rw [← not_or, ← hwritable] at hrom
      exact Bool.eq_false_iff.2 hrom
    rw [chr_run_of_not_writable c ops hnot]

/-! ### Two images that differ in the board alone -/

/-- An image of 16 kilobytes of program memory and eight of character memory, all zero; the board
is the upper half of `flags`. -/
def blankImage (flags : UInt8) : Array UInt8 :=
  #[0x4E, 0x45, 0x53, 0x1A, 1, 1, flags, 0, 0, 0, 0, 0, 0, 0, 0, 0] ++ Array.replicate 0x6000 0

def blankHeader (mapper : UInt8) : Header where
  prgUnits := 1
  chrUnits := 1
  mapper := mapper
  mirroring := .horizontal
  battery := false
  trainer := false

def blankPrg (flags : UInt8) : Array UInt8 := (blankImage flags).extract 16 (16 + 0x4000)

def blankChr (flags : UInt8) : Array UInt8 :=
  (blankImage flags).extract (16 + 0x4000) (16 + 0x4000 + 0x2000)

attribute [irreducible] blankPrg blankChr

theorem getD_blankImage (flags : UInt8) :
    (blankImage flags).getD 4 0 = 1 ∧ (blankImage flags).getD 5 0 = 1 ∧
    (blankImage flags).getD 6 0 = flags ∧ (blankImage flags).getD 7 0 = 0 := by
  refine ⟨?_, ?_, ?_, ?_⟩ <;> simp [blankImage, Array.getD_eq_getD_getElem?]

theorem parse_blankImage {flags mapper : UInt8} (hm : flags >>> 4 ||| (0 &&& 0xF0) = mapper)
    (h1 : testBits flags 0x01 = false) (h2 : testBits flags 0x02 = false)
    (h4 : testBits flags 0x04 = false) :
    Header.parse (blankImage flags) = .ok (blankHeader mapper) := by
  obtain ⟨hprg, hchr, hflags, hhigh⟩ := getD_blankImage flags
  have hsize : ¬ (blankImage flags).size < Header.size := by simp [blankImage, Header.size]
  unfold Header.parse
  simp only [hsize, ite_false, hprg, hchr, hflags, hhigh, hm, h1, h2, h4]
  rfl

theorem load_blankImage {flags mapper : UInt8} {board : Board}
    (hparse : Header.parse (blankImage flags) = .ok (blankHeader mapper))
    (hboard : boardOf? ⟨blankHeader mapper, (blankImage flags).extract 16 16, blankPrg flags,
      blankChr flags⟩ = some board) :
    ofBytes (blankImage flags) = .ok ⟨blankHeader mapper, none, board⟩ := by
  have hunit : (1 : UInt8).toNat = 1 := by decide
  unfold blankPrg blankChr at hboard
  exact load_of_size hparse rfl (congrArg (· * 0x4000) hunit) (congrArg (· * 0x2000) hunit)
    (by simp [blankImage]) hboard

theorem chrOf_blank {mapper : UInt8} (trainer prg chr : Array UInt8) :
    chrOf ⟨blankHeader mapper, trainer, prg, chr⟩ = ⟨chr, false⟩ := by
  have hram : (blankHeader mapper).chrIsRam = false := by
    show ((1 : UInt8) == 0) = false
    decide
  unfold chrOf
  simp [hram]

def blankNrom : Cartridge where
  header := blankHeader 0
  trainer := none
  board := .nrom ⟨blankPrg 0, ⟨blankChr 0, false⟩, .horizontal⟩

theorem load_blankNrom : ofBytes (blankImage 0) = .ok blankNrom := by
  refine load_blankImage (parse_blankImage (by decide) (by decide) (by decide) (by decide)) ?_
  unfold boardOf?
  rw [chrOf_blank]
  rfl

def blankUxrom : Cartridge where
  header := blankHeader 2
  trainer := none
  board := .uxrom (.powerOn (blankPrg 0x20) (blankChr 0x20) .horizontal)

theorem load_blankUxrom : ofBytes (blankImage 0x20) = .ok blankUxrom := by
  refine load_blankImage (parse_blankImage (by decide) (by decide) (by decide) (by decide)) ?_
  unfold boardOf?
  rw [chrOf_blank]
  rfl

theorem blankChr_size (flags : UInt8) : (blankChr flags).size = 0x2000 := by
  simp [blankChr, blankImage]

theorem blankChr_zero (flags : UInt8) : (blankChr flags)[0]? = some 0 := by
  simp [blankChr, blankImage]

/-- On NROM the eight kilobytes from the image stay as they are. -/
theorem rom_unchanged_nrom :
    ofBytes (blankImage 0) = .ok blankNrom ∧
    (∀ ops : List Op, (blankNrom.run ops).board.prgRom = blankNrom.board.prgRom) ∧
    (∀ ops : List Op, (blankNrom.run ops).board.chr.bytes = blankNrom.board.chr.bytes) := by
  have h := rom_unchanged_iff load_blankNrom
  exact ⟨load_blankNrom, h.1, h.2.2 ⟨by decide, by decide⟩⟩

theorem chr_write_uxrom (header : Header) (prg : Array UInt8) {chr : Array UInt8} (v : UInt8)
    (hsize : chr.size = 0x2000) :
    (run ⟨header, none, .uxrom (.powerOn prg chr .horizontal)⟩
      [.ppuWrite 0 v]).board.chr.bytes = chr.setIfInBounds 0 v := by
  show (Chr.write ⟨chr, chr.size == 0x2000⟩ 0 v).bytes = _
  rw [hsize]
  rfl

/-- On UxROM they do not: the header gives the cartridge character memory, and a write changes
it. -/
theorem uxrom_image_written :
    ofBytes (blankImage 0x20) = .ok blankUxrom ∧ blankUxrom.header.chrUnits ≠ 0 ∧
      (blankUxrom.run [.ppuWrite 0 0x77]).board.chr.bytes ≠ blankUxrom.board.chr.bytes := by
  have hpos : 0 < (blankChr 0x20).size := by
    rw [blankChr_size]
    decide
  have hwritten := chr_write_uxrom (blankHeader 2) (blankPrg 0x20) 0x77 (blankChr_size 0x20)
  refine ⟨load_blankUxrom, by decide, ?_⟩
  intro heq
  have hcell : ((blankChr 0x20).setIfInBounds 0 0x77)[0]? = (blankChr 0x20)[0]? :=
    congrArg (fun bytes : Array UInt8 => bytes[0]?) (hwritten.symm.trans heq)
  rw [Array.getElem?_setIfInBounds_self_of_lt hpos, blankChr_zero] at hcell
  exact absurd (Option.some.inj hcell) (by decide)

end Nes.Cartridge
