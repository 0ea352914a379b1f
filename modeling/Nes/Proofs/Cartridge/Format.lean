import Nes.Proofs.Byte
import Nes.Proofs.Cartridge.Loading

/-!
# The format of an image

Bytes four to seven of an image say which sections follow its header and how long each one is.  An
image that does not hold them all is refused for the first one that is missing or short.  Nothing
else counts: not the first four bytes, and not what follows the last section.  `Image.bytes` writes
an image, and reading takes apart again what it wrote.
-/

namespace Nes

/-! ### The header -/

theorem testBits_eq_testBit (b : UInt8) : testBits b 0x01 = b.toNat.testBit 0 ∧
    testBits b 0x02 = b.toNat.testBit 1 ∧ testBits b 0x04 = b.toNat.testBit 2 := by
  revert b
  apply forall_byte
  decide +kernel

namespace Header

/-- What bytes four to seven say. -/
def ofBytes (d : Array UInt8) : Header where
  prgUnits := d.getD 4 0
  chrUnits := d.getD 5 0
  mapper := d.getD 6 0 >>> 4 ||| (d.getD 7 0 &&& 0xF0)
  mirroring := if (d.getD 6 0).toNat.testBit 0 then .vertical else .horizontal
  battery := (d.getD 6 0).toNat.testBit 1
  trainer := (d.getD 6 0).toNat.testBit 2

theorem parse_of_size {d : Array UInt8} (h : 16 ≤ d.size) : parse d = .ok (ofBytes d) := by
  obtain ⟨h0, h1, h2⟩ := testBits_eq_testBit (d.getD 6 0)
  have hlong : ¬ d.size < size := Nat.not_lt.2 h
  unfold parse ofBytes
  rw [if_neg hlong]
  dsimp only
  rw [h0, h1, h2]

theorem ofBytes_append {d : Array UInt8} (h : 16 ≤ d.size) (extra : Array UInt8) :
    ofBytes (d ++ extra) = ofBytes d := by
  have hbyte : ∀ i, i < 16 → (d ++ extra).getD i 0 = d.getD i 0 := by
    intro i hi
    exact Cartridge.getD_append_of_lt (Nat.lt_of_lt_of_le hi h) 0
  unfold ofBytes
  rw [hbyte 4 (by decide), hbyte 5 (by decide), hbyte 6 (by decide), hbyte 7 (by decide)]

/-- The board is known. -/
def Supported (h : Header) : Prop := h.mapper = 0 ∨ h.mapper = 2 ∨ h.mapper = 4

instance : DecidablePred Supported :=
  fun h => inferInstanceAs (Decidable (h.mapper = 0 ∨ h.mapper = 2 ∨ h.mapper = 4))

/-- Byte six: the lower half of the board's number above three flags. -/
def flags (h : Header) : UInt8 :=
  h.mapper <<< 4 ||| bitIf (h.mirroring = .vertical) 0x01 ||| bitIf h.battery 0x02 |||
    bitIf h.trainer 0x04

def bytes (h : Header) : Array UInt8 :=
  #[0x4E, 0x45, 0x53, 0x1A, h.prgUnits, h.chrUnits, h.flags, h.mapper &&& 0xF0,
    0, 0, 0, 0, 0, 0, 0, 0]

theorem size_bytes (h : Header) : h.bytes.size = 16 := rfl

theorem flags_parts (mapper : UInt8) (a b c : Bool) :
    let f := mapper <<< 4 ||| bitIf a 0x01 ||| bitIf b 0x02 ||| bitIf c 0x04
    f >>> 4 ||| (mapper &&& 0xF0 &&& 0xF0) = mapper ∧ f.toNat.testBit 0 = a ∧
      f.toNat.testBit 1 = b ∧ f.toNat.testBit 2 = c := by
  revert mapper a b c
  apply forall_byte
  decide +kernel

theorem ofBytes_bytes (h : Header) (rest : Array UInt8) : ofBytes (h.bytes ++ rest) = h := by
  obtain ⟨hmapper, hmirroring, hbattery, htrainer⟩ :=
    flags_parts h.mapper (h.mirroring = .vertical) h.battery h.trainer
  have hmirror : (if decide (h.mirroring = .vertical) = true then Mirroring.vertical
      else .horizontal) = h.mirroring := by
    cases h.mirroring <;> rfl
  have h4 : h.bytes.getD 4 0 = h.prgUnits := rfl
  have h5 : h.bytes.getD 5 0 = h.chrUnits := rfl
  have h6 : h.bytes.getD 6 0 = h.flags := rfl
  have h7 : h.bytes.getD 7 0 = h.mapper &&& 0xF0 := rfl
  rw [ofBytes_append (Nat.le_of_eq h.size_bytes.symm)]
  unfold ofBytes
  rw [h4, h5, h6, h7, flags, hmapper, hmirroring, hbattery, htrainer, hmirror]

end Header

/-! ### The sections -/

namespace Image

/-- The sections with the bytes that each one takes, in file order. -/
def sections (d : Array UInt8) : List (ImagePart × Nat) :=
  let h := Header.ofBytes d
  [(.header, 16), (.trainer, if h.trainer then 512 else 0), (.prg, 16384 * h.prgUnits.toNat),
    (.chr, 8192 * h.chrUnits.toNat)]

/-- The first section that is longer than what is left after those before it. -/
def shortage : List (ImagePart × Nat) → Nat → Option LoadError
  | [], _ => none
  | (part, length) :: rest, left =>
    if left < length then some (.truncated part length left) else shortage rest (left - length)

/-- Why an image is refused, if it is. -/
def refusal (d : Array UInt8) : Option LoadError :=
  (shortage (sections d) d.size).or
    (if (Header.ofBytes d).Supported then none
      else some (.unsupportedMapper (Header.ofBytes d).mapper))

/-- The sections of an image that holds them all. -/
def slices (d : Array UInt8) : Image :=
  let h := Header.ofBytes d
  let prg := 16 + if h.trainer then 512 else 0
  let chr := prg + 16384 * h.prgUnits.toNat
  { header := h
    trainer := d.extract 16 prg
    prg := d.extract prg chr
    chr := d.extract chr (chr + 8192 * h.chrUnits.toNat) }

theorem shortage_eq_none_iff (sections : List (ImagePart × Nat)) (left : Nat) :
    shortage sections left = none ↔ (sections.map Prod.snd).sum ≤ left := by
  induction sections generalizing left with
  | nil => simp [shortage]
  | cons s rest ih =>
    unfold shortage
    rw [List.map_cons, List.sum_cons]
    split
    case isTrue h => simp only [reduceCtorEq, false_iff]; omega
    case isFalse h => rw [ih]; omega

theorem fits_iff (d : Array UInt8) : shortage (sections d) d.size = none ↔
    16 + (if (Header.ofBytes d).trainer then 512 else 0) +
      16384 * (Header.ofBytes d).prgUnits.toNat + 8192 * (Header.ofBytes d).chrUnits.toNat ≤
        d.size := by
  rw [shortage_eq_none_iff]
  simp only [sections, List.map_cons, List.map_nil, List.sum_cons, List.sum_nil]
  omega

theorem sections_eq (d : Array UInt8) : sections d =
    [(.header, 16), (.trainer, (Header.ofBytes d).trainerSize),
      (.prg, (Header.ofBytes d).prgSize), (.chr, (Header.ofBytes d).chrSize)] := by
  unfold sections Header.prgSize Header.chrSize
  rw [Nat.mul_comm _ 0x4000, Nat.mul_comm _ 0x2000]
  rfl

theorem parse_of_fits {d : Array UInt8} (h : shortage (sections d) d.size = none) :
    parse d = .ok (slices d) := by
  have hfits := (fits_iff d).1 h
  have hprg : (Header.ofBytes d).prgSize = 16384 * (Header.ofBytes d).prgUnits.toNat :=
    Nat.mul_comm _ _
  have hchr : (Header.ofBytes d).chrSize = 8192 * (Header.ofBytes d).chrUnits.toNat :=
    Nat.mul_comm _ _
  have hparse := Cartridge.parse_of_size (Header.parse_of_size (d := d) (by omega))
    (by rw [hprg, hchr]; exact hfits)
  rw [hprg, hchr] at hparse
  exact hparse

section Short

variable {d : Array UInt8} {which : ImagePart} {offset length : Nat}

theorem part_of_lt (hoffset : offset ≤ d.size) (h : d.size - offset < length) :
    part d which offset length = .error (.truncated which length (d.size - offset)) := by
  unfold part
  rw [if_neg (by omega)]

theorem part_of_le (hoffset : offset ≤ d.size) (h : ¬ d.size - offset < length) :
    part d which offset length = .ok (d.extract offset (offset + length)) := by
  unfold part
  rw [if_pos (by omega)]

variable {header : Header} (hh : Header.parse d = .ok header) (h16 : 16 ≤ d.size)

include hh h16

theorem parse_short_trainer (h : d.size - 16 < header.trainerSize) :
    parse d = .error (.truncated .trainer header.trainerSize (d.size - 16)) := by
  unfold parse
  rw [hh]
  show (part d .trainer 16 header.trainerSize >>= _) = _
  rw [part_of_lt h16 h]
  rfl

theorem parse_short_prg (ht : ¬ d.size - 16 < header.trainerSize)
    (h : d.size - (16 + header.trainerSize) < header.prgSize) :
    parse d = .error (.truncated .prg header.prgSize (d.size - (16 + header.trainerSize))) := by
  unfold parse
  rw [hh]
  show (part d .trainer 16 header.trainerSize >>= _) = _
  rw [part_of_le h16 ht]
  show (part d .prg (16 + header.trainerSize) header.prgSize >>= _) = _
  rw [part_of_lt (by omega) h]
  rfl

theorem parse_short_chr (ht : ¬ d.size - 16 < header.trainerSize)
    (hp : ¬ d.size - (16 + header.trainerSize) < header.prgSize)
    (h : d.size - (16 + header.trainerSize + header.prgSize) < header.chrSize) :
    parse d = .error (.truncated .chr header.chrSize
      (d.size - (16 + header.trainerSize + header.prgSize))) := by
  unfold parse
  rw [hh]
  show (part d .trainer 16 header.trainerSize >>= _) = _
  rw [part_of_le h16 ht]
  show (part d .prg (16 + header.trainerSize) header.prgSize >>= _) = _
  rw [part_of_le (by omega) hp]
  show (part d .chr (16 + header.trainerSize + header.prgSize) header.chrSize >>= _) = _
  rw [part_of_lt (by omega) h]
  rfl

end Short

theorem parse_of_shortage {d : Array UInt8} {e : LoadError}
    (h : shortage (sections d) d.size = some e) : parse d = .error e := by
  rw [sections_eq] at h
  simp only [shortage, Nat.sub_sub] at h
  split at h
  case isTrue hheader =>
    cases h
    unfold parse Header.parse
    rw [if_pos (show d.size < Header.size from hheader)]
    rfl
  case isFalse hheader =>
    have h16 := Nat.not_lt.1 hheader
    have hh := Header.parse_of_size h16
    split at h
    case isTrue ht =>
      cases h
      exact parse_short_trainer hh h16 ht
    case isFalse ht =>
      split at h
      case isTrue hp =>
        cases h
        exact parse_short_prg hh h16 ht hp
      case isFalse hp =>
        split at h
        case isTrue hc =>
          cases h
          exact parse_short_chr hh h16 ht hp hc
        case isFalse hc => cases h

/-! ### Nothing else counts -/

theorem slices_append {d : Array UInt8} (h : shortage (sections d) d.size = none)
    (extra : Array UInt8) : slices (d ++ extra) = slices d := by
  have hfits := (fits_iff d).1 h
  have hheader := Header.ofBytes_append (d := d) (by omega) extra
  have hslice : ∀ a b, b ≤ d.size → (d ++ extra).extract a b = d.extract a b := by
    intro a b hb
    have hzero : b - d.size = 0 := by omega
    simp [Array.extract_append, hzero]
  unfold slices
  rw [hheader]
  dsimp only
  rw [hslice _ _ (by omega), hslice _ _ (by omega), hslice _ _ hfits]

theorem fits_append {d : Array UInt8} (h : shortage (sections d) d.size = none)
    (extra : Array UInt8) : shortage (sections (d ++ extra)) (d ++ extra).size = none := by
  have hfits := (fits_iff d).1 h
  rw [fits_iff, Header.ofBytes_append (by omega), Array.size_append]
  omega

section SameRest

variable {d other : Array UInt8} (hsize : other.size = d.size)
  (hrest : ∀ i, 4 ≤ i → other[i]? = d[i]?)

include hrest

theorem ofBytes_of_rest : Header.ofBytes other = Header.ofBytes d := by
  have hbyte : ∀ i, 4 ≤ i → other.getD i 0 = d.getD i 0 := by
    intro i hi
    rw [Array.getD_eq_getD_getElem?, Array.getD_eq_getD_getElem?, hrest i hi]
  unfold Header.ofBytes
  rw [hbyte 4 (by decide), hbyte 5 (by decide), hbyte 6 (by decide), hbyte 7 (by decide)]

theorem sections_of_rest : sections other = sections d := by
  unfold sections
  rw [ofBytes_of_rest hrest]

include hsize

theorem slices_of_rest : slices other = slices d := by
  have hslice : ∀ a b, 4 ≤ a → other.extract a b = d.extract a b := by
    intro a b ha
    apply Array.ext_getElem?
    intro i
    rw [Array.getElem?_extract, Array.getElem?_extract, hsize, hrest (a + i) (by omega)]
  unfold slices
  rw [ofBytes_of_rest hrest]
  dsimp only
  rw [hslice _ _ (by omega), hslice _ _ (by omega), hslice _ _ (by omega)]

theorem parse_of_rest : parse other = parse d := by
  cases h : shortage (sections d) d.size with
  | none =>
    have hother : shortage (sections other) other.size = none := by
      rw [sections_of_rest hrest, hsize, h]
    rw [parse_of_fits h, parse_of_fits hother, slices_of_rest hsize hrest]
  | some e =>
    have hother : shortage (sections other) other.size = some e := by
      rw [sections_of_rest hrest, hsize, h]
    rw [parse_of_shortage h, parse_of_shortage hother]

end SameRest

/-! ### Images written and read -/

/-- The sections are as long as the header says. -/
structure WellFormed (image : Image) : Prop where
  trainer : image.trainer.size = if image.header.trainer then 512 else 0
  prg : image.prg.size = 16384 * image.header.prgUnits.toNat
  chr : image.chr.size = 8192 * image.header.chrUnits.toNat

def bytes (image : Image) : Array UInt8 :=
  image.header.bytes ++ image.trainer ++ image.prg ++ image.chr

theorem ofBytes_bytes (image : Image) : Header.ofBytes image.bytes = image.header := by
  unfold bytes
  rw [Array.append_assoc, Array.append_assoc]
  exact image.header.ofBytes_bytes _

theorem WellFormed.fits {image : Image} (h : image.WellFormed) :
    shortage (sections image.bytes) image.bytes.size = none := by
  rw [fits_iff, ofBytes_bytes, ← h.trainer, ← h.prg, ← h.chr]
  unfold bytes
  simp only [Array.size_append, Header.size_bytes]
  omega

theorem WellFormed.slices_bytes {image : Image} (h : image.WellFormed) :
    slices image.bytes = image := by
  obtain ⟨htrainer, -⟩ := Cartridge.parts_of_append image.header.bytes image.trainer
    (image.prg ++ image.chr)
  obtain ⟨hprg, hchr⟩ := Cartridge.parts_of_append (image.header.bytes ++ image.trainer)
    image.prg image.chr
  rw [← Array.append_assoc] at htrainer
  rw [Array.size_append] at hprg hchr
  unfold slices
  rw [ofBytes_bytes]
  dsimp only
  rw [← h.trainer, ← h.prg, ← h.chr, ← image.header.size_bytes]
  unfold bytes
  rw [htrainer, hprg, hchr]

theorem wellFormed_slices {d : Array UInt8} (h : shortage (sections d) d.size = none) :
    (slices d).WellFormed := by
  have hfits := (fits_iff d).1 h
  have hlength : ∀ a b, a + b ≤ d.size → (d.extract a (a + b)).size = b := by
    intro a b hab
    rw [Array.size_extract_of_le hab, Nat.add_sub_cancel_left]
  exact ⟨hlength _ _ (by omega), hlength _ _ (by omega), hlength _ _ hfits⟩

/-- What was written is read. -/
theorem WellFormed.parse_bytes {image : Image} (h : image.WellFormed) :
    parse image.bytes = .ok image := by
  rw [parse_of_fits h.fits, h.slices_bytes]

end Image

end Nes
