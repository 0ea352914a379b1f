import Nes.Proofs.Cartridge.Format
import Nes.Proofs.Cartridge.Rom

/-!
# What a cartridge holds

An image that holds its sections is refused only for a board that is not known.  Every other image
gives a cartridge with the board that the header asks for and the sections as they are; the trainer
is laid over the memory at `$7000`, which is zero elsewhere.
-/

namespace Nes

/-! ### Bytes laid over a block -/

namespace Memory

variable {size : Nat} [MemorySize size]

theorem get_overlay (m : Memory size) (offset : Nat) (bytes : List UInt8) (addr : UInt16) :
    (m.overlay offset bytes).get addr =
      if offset ≤ addr.toNat % size ∧ addr.toNat % size < offset + bytes.length then
        bytes.getD (addr.toNat % size - offset) 0
      else m.get addr := by
  have hcell : addr.toNat % size < size := Nat.mod_lt _ MemorySize.pos
  induction bytes generalizing m offset with
  | nil =>
    rw [overlay, List.length_nil, if_neg (by omega)]
  | cons b rest ih =>
    have hset : Memory.get ⟨m.cells.setIfInBounds offset b⟩ addr =
        if offset = addr.toNat % size then b else m.get addr := by
      simp [get, Vector.getElem_setIfInBounds]
    unfold overlay
    rw [ih, hset, List.length_cons]
    -- the cell is the first of those laid over, a later one, or none of them
    by_cases hfirst : offset = addr.toNat % size
    · have hlate : ¬ (offset + 1 ≤ addr.toNat % size ∧
          addr.toNat % size < offset + 1 + rest.length) := by omega
      have hhere : offset ≤ addr.toNat % size ∧
          addr.toNat % size < offset + (rest.length + 1) := by omega
      rw [if_neg hlate, if_pos hfirst, if_pos hhere, ← hfirst, Nat.sub_self]
      rfl
    · by_cases hlate : offset + 1 ≤ addr.toNat % size ∧
          addr.toNat % size < offset + 1 + rest.length
      · have hhere : offset ≤ addr.toNat % size ∧
            addr.toNat % size < offset + (rest.length + 1) := by omega
        have hnext : addr.toNat % size - offset = addr.toNat % size - (offset + 1) + 1 := by omega
        rw [if_pos hlate, if_pos hhere, hnext, List.getD_cons_succ]
      · have hhere : ¬ (offset ≤ addr.toNat % size ∧
            addr.toNat % size < offset + (rest.length + 1)) := by omega
        rw [if_neg hlate, if_neg hfirst, if_neg hhere]

end Memory

/-! ### Cartridges -/

namespace Cartridge

/-- What a cartridge holds that was made from an image: the board that the header asks for, the
memories as they are, and of the trainer a copy at `$7000` where there is memory for it. -/
structure Holds (image : Image) (c : Cartridge) : Prop where
  header : c.header = image.header
  trainer : c.trainer = if image.header.trainer then some image.trainer else none
  id : c.board.id = image.header.mapper
  mirroring : c.board.mirroring = image.header.mirroring
  prg : c.board.prgRom = image.prg
  chr : c.board.chr.bytes =
    if image.header.chrUnits = 0 then Array.replicate 8192 0 else image.chr
  chrRam : image.header.chrUnits = 0 → c.board.chr.writable = true
  noRam : image.header.mapper = 0 → c.board.prgRam? = none
  ram : image.header.mapper ≠ 0 → ∃ ram, c.board.prgRam? = some ram ∧
    ∀ addr : UInt16, 0x6000 ≤ addr → addr < 0x8000 → ram.get addr =
      if image.header.trainer = true ∧ 0x7000 ≤ addr ∧ addr < 0x7200 then
        image.trainer.getD (addr.toNat - 0x7000) 0
      else 0

theorem exists_boardOf?_iff (image : Image) :
    (∃ board, boardOf? image = some board) ↔ image.header.Supported := by
  unfold Header.Supported
  constructor
  · rintro ⟨board, h⟩
    rcases boardOf?_cases h with ⟨hm, -⟩ | ⟨hm, -⟩ | ⟨hm, -⟩
    · exact .inl hm
    · exact .inr (.inl hm)
    · exact .inr (.inr hm)
  · intro h
    unfold boardOf?
    rcases h with hm | hm | hm <;> rw [hm] <;> exact ⟨_, rfl⟩

theorem ofImage_of_unsupported {image : Image} (h : ¬ image.header.Supported) :
    ofImage image = .error (.unsupportedMapper image.header.mapper) := by
  unfold ofImage
  cases hboard : boardOf? image with
  | none => rfl
  | some board => exact absurd ((exists_boardOf?_iff image).1 ⟨board, hboard⟩) h

theorem ofImage_of_board {image : Image} {board : Board} (h : boardOf? image = some board) :
    ofImage image = .ok ⟨image.header,
      if image.header.trainer then some image.trainer else none,
      if image.header.trainer then (board.loadTrainer image.trainer).2 else board⟩ := by
  unfold ofImage
  rw [h]
  cases image.header.trainer <;> rfl

/-! ### The trainer -/

/-- The memory at `$6000` with the trainer laid over its second half. -/
def trained (image : Image) : PrgRam :=
  if image.header.trainer then (Memory.filled 0).overlay 0x1000 image.trainer.toList
  else .filled 0

theorem get_trained {image : Image} (h : image.WellFormed) {addr : UInt16} (hlow : 0x6000 ≤ addr)
    (hhigh : addr < 0x8000) : (trained image).get addr =
      if image.header.trainer = true ∧ 0x7000 ≤ addr ∧ addr < 0x7200 then
        image.trainer.getD (addr.toNat - 0x7000) 0
      else 0 := by
  have hlow' : 0x6000 ≤ addr.toNat := UInt16.le_iff_toNat_le.1 hlow
  have hhigh' : addr.toNat < 0x8000 := UInt16.lt_iff_toNat_lt.1 hhigh
  unfold trained
  cases ht : image.header.trainer with
  | false => simp
  | true =>
    have hlength : image.trainer.toList.length = 512 := by
      rw [Array.length_toList, h.trainer, ht, if_pos rfl]
    have hwindow : (0x1000 ≤ addr.toNat % 0x2000 ∧ addr.toNat % 0x2000 < 0x1000 + 512) ↔
        (0x7000 ≤ addr ∧ addr < 0x7200) := by
      rw [UInt16.le_iff_toNat_le, UInt16.lt_iff_toNat_lt]
      show _ ↔ 0x7000 ≤ addr.toNat ∧ addr.toNat < 0x7200
      omega
    rw [if_pos rfl, Memory.get_overlay, hlength]
    simp only [hwindow, true_and]
    split
    case isTrue hin =>
      have hin' : 0x7000 ≤ addr.toNat := UInt16.le_iff_toNat_le.1 hin.1
      have hplace : addr.toNat % 0x2000 - 0x1000 = addr.toNat - 0x7000 := by omega
      rw [hplace, List.getD_eq_getElem?_getD, Array.getElem?_toList,
        Array.getD_eq_getD_getElem?]
    case isFalse => exact Memory.get_filled 0 addr

/-- A trainer changes nothing but the memory at `$6000`. -/
theorem ram_of_loadTrainer {image : Image} {board : Board} (h : image.WellFormed)
    (ht : image.header.trainer = true) :
    (board.loadTrainer image.trainer).2 = board.onPrgRam (·.overlay 0x1000 image.trainer.toList) := by
  have hfits : 0x1000 + image.trainer.size ≤ 0x2000 := by
    rw [h.trainer, if_pos ht]
    decide
  unfold Board.loadTrainer
  cases board with
  | nrom b => rfl
  | uxrom b => simp [Board.prgRam?, hfits]
  | mmc3 b => simp [Board.prgRam?, hfits]

/-- The board with the image's trainer, where there is one. -/
def finish (image : Image) (board : Board) : Board :=
  if image.header.trainer then (board.loadTrainer image.trainer).2 else board

section Finish

variable {image : Image} {board : Board}

theorem finish_parts (board : Board) (h : image.WellFormed) : (finish image board).id = board.id ∧
    (finish image board).mirroring = board.mirroring ∧
    (finish image board).prgRom = board.prgRom ∧ (finish image board).chr = board.chr := by
  unfold finish
  split
  case isTrue ht =>
    rw [ram_of_loadTrainer h ht]
    cases board <;> exact ⟨rfl, rfl, rfl, rfl⟩
  case isFalse => exact ⟨rfl, rfl, rfl, rfl⟩

theorem prgRam?_finish (h : image.WellFormed) (hram : board.prgRam? = some (.filled 0)) :
    (finish image board).prgRam? = some (trained image) := by
  unfold finish trained
  split
  case isTrue ht => rw [ram_of_loadTrainer h ht, Board.prgRam?_onPrgRam, hram, Option.map_some]
  case isFalse => exact hram

theorem prgRam?_finish_none (h : image.WellFormed) (hram : board.prgRam? = none) :
    (finish image board).prgRam? = none := by
  unfold finish
  split
  case isTrue ht => rw [ram_of_loadTrainer h ht, Board.prgRam?_onPrgRam, hram, Option.map_none]
  case isFalse => exact hram

end Finish

/-- A board as it is put together, before a trainer. -/
theorem parts_of_boardOf? {image : Image} {board : Board} (hboard : boardOf? image = some board) :
    board.id = image.header.mapper ∧ board.mirroring = image.header.mirroring ∧
    board.prgRom = image.prg ∧ board.chr.bytes = (chrOf image).bytes ∧
    board.prgRam? = if image.header.mapper = 0 then none else some (.filled 0) := by
  rcases boardOf?_cases hboard with ⟨hm, rfl⟩ | ⟨hm, rfl⟩ | ⟨hm, rfl⟩ <;>
    rw [hm] <;> exact ⟨rfl, rfl, rfl, rfl, rfl⟩

theorem chrOf_bytes (image : Image) : (chrOf image).bytes =
    if image.header.chrUnits = 0 then Array.replicate 8192 0 else image.chr := by
  unfold chrOf
  simp only [chrIsRam_iff]
  split <;> rfl

theorem holds_finish {image : Image} {board : Board} (h : image.WellFormed)
    (hboard : boardOf? image = some board) : Holds image ⟨image.header,
      if image.header.trainer then some image.trainer else none, finish image board⟩ := by
  obtain ⟨hid, hmirroring, hprg, hchr, hram⟩ := parts_of_boardOf? hboard
  obtain ⟨hid', hmirroring', hprg', hchr'⟩ := finish_parts board h
  constructor
  case header => rfl
  case trainer => rfl
  case id => exact hid'.trans hid
  case mirroring => exact hmirroring'.trans hmirroring
  case prg => exact hprg'.trans hprg
  case chr =>
    show (finish image board).chr.bytes = _
    rw [hchr', hchr, chrOf_bytes]
  case chrRam =>
    intro hunits
    show (finish image board).chr.writable = true
    rw [hchr', writable_of_boardOf? (by rw [h.chr, Header.chrSize, Nat.mul_comm]) hboard]
    exact .inl hunits
  case noRam =>
    intro hm
    exact prgRam?_finish_none h (by rw [hram, if_pos hm])
  case ram =>
    intro hm
    refine ⟨trained image, prgRam?_finish h (by rw [hram, if_neg hm]), ?_⟩
    intro addr hlow hhigh
    exact get_trained h hlow hhigh

/-! ### Loading -/

/-- The cartridge made from an image. -/
def assemble (image : Image) (board : Board) : Cartridge :=
  ⟨image.header, if image.header.trainer then some image.trainer else none, finish image board⟩

theorem ofBytes_of_refusal {d : Array UInt8} {e : LoadError} (h : Image.refusal d = some e) :
    ofBytes d = .error e := by
  unfold Image.refusal at h
  cases hshort : Image.shortage (Image.sections d) d.size with
  | some e' =>
    rw [hshort, Option.some_or, Option.some.injEq] at h
    unfold ofBytes
    rw [Image.parse_of_shortage hshort, h]
    rfl
  | none =>
    rw [hshort, Option.none_or] at h
    split at h
    case isTrue => cases h
    case isFalse hunsupported =>
      cases h
      unfold ofBytes
      rw [Image.parse_of_fits hshort]
      exact ofImage_of_unsupported hunsupported

theorem refusal_eq_none_iff (d : Array UInt8) : Image.refusal d = none ↔
    Image.shortage (Image.sections d) d.size = none ∧ (Header.ofBytes d).Supported := by
  unfold Image.refusal
  rw [Option.or_eq_none_iff]
  simp

theorem ofBytes_of_accepted {d : Array UInt8} (h : Image.refusal d = none) :
    ∃ board, boardOf? (Image.slices d) = some board ∧
      ofBytes d = .ok (assemble (Image.slices d) board) := by
  obtain ⟨hfits, hsupported⟩ := (refusal_eq_none_iff d).1 h
  obtain ⟨board, hboard⟩ := (exists_boardOf?_iff (Image.slices d)).2 hsupported
  refine ⟨board, hboard, ?_⟩
  unfold ofBytes
  rw [Image.parse_of_fits hfits]
  exact ofImage_of_board hboard

theorem exists_ofBytes_iff (d : Array UInt8) : (∃ c, ofBytes d = .ok c) ↔
    16 + (if (Header.ofBytes d).trainer then 512 else 0) +
      16384 * (Header.ofBytes d).prgUnits.toNat + 8192 * (Header.ofBytes d).chrUnits.toNat ≤
        d.size ∧ (Header.ofBytes d).Supported := by
  rw [← Image.fits_iff, ← refusal_eq_none_iff]
  constructor
  · rintro ⟨c, hc⟩
    cases h : Image.refusal d with
    | none => rfl
    | some e =>
      rw [ofBytes_of_refusal h] at hc
      cases hc
  · intro h
    obtain ⟨board, -, hload⟩ := ofBytes_of_accepted h
    exact ⟨_, hload⟩

theorem ofBytes_eq_error_iff (d : Array UInt8) (e : LoadError) :
    ofBytes d = .error e ↔ Image.refusal d = some e := by
  constructor
  · intro he
    cases h : Image.refusal d with
    | none =>
      obtain ⟨board, -, hload⟩ := ofBytes_of_accepted h
      rw [hload] at he
      cases he
    | some e' =>
      rw [ofBytes_of_refusal h] at he
      cases he
      rfl
  · exact ofBytes_of_refusal

theorem accepted_of_ok {d : Array UInt8} {c : Cartridge} (h : ofBytes d = .ok c) :
    Image.shortage (Image.sections d) d.size = none ∧ ofImage (Image.slices d) = .ok c ∧
      ∃ board, boardOf? (Image.slices d) = some board ∧ c = assemble (Image.slices d) board := by
  have hrefusal : Image.refusal d = none := by
    cases hr : Image.refusal d with
    | none => rfl
    | some e =>
      rw [ofBytes_of_refusal hr] at h
      cases h
  obtain ⟨hfits, -⟩ := (refusal_eq_none_iff d).1 hrefusal
  obtain ⟨board, hboard, hload⟩ := ofBytes_of_accepted hrefusal
  rw [hload] at h
  cases h
  exact ⟨hfits, ofImage_of_board hboard, board, hboard, rfl⟩

theorem ofBytes_of_wellFormed {image : Image} (h : image.WellFormed) :
    ofBytes image.bytes = ofImage image := by
  unfold ofBytes
  rw [h.parse_bytes]
  rfl

/-- Every image is either refused for the first section that it does not hold, or for its board,
or it gives a cartridge that holds its sections as they are; writing them down again gives an
image of the same cartridge.  The first four bytes and those after the last section do not
count. -/
theorem loads_exactly :
    (∀ d : Array UInt8,
      ((∃ c, ofBytes d = .ok c) ↔
        16 + (if (Header.ofBytes d).trainer then 512 else 0) +
          16384 * (Header.ofBytes d).prgUnits.toNat + 8192 * (Header.ofBytes d).chrUnits.toNat ≤
            d.size ∧ (Header.ofBytes d).Supported) ∧
      (∀ e, ofBytes d = .error e ↔ Image.refusal d = some e) ∧
      (∀ c, ofBytes d = .ok c → Holds (Image.slices d) c ∧
        ofBytes (Image.slices d).bytes = .ok c ∧
        ∀ extra : Array UInt8, ofBytes (d ++ extra) = .ok c) ∧
      (∀ other : Array UInt8, other.size = d.size → (∀ i, 4 ≤ i → other[i]? = d[i]?) →
        ofBytes other = ofBytes d)) ∧
    (∀ image : Image, image.WellFormed → image.header.Supported →
      ∃ c, ofBytes image.bytes = .ok c ∧ Holds image c) := by
  constructor
  · intro d
    refine ⟨exists_ofBytes_iff d, ofBytes_eq_error_iff d, ?_, ?_⟩
    · intro c hc
      obtain ⟨hfits, himage, board, hboard, rfl⟩ := accepted_of_ok hc
      refine ⟨holds_finish (Image.wellFormed_slices hfits) hboard, ?_, ?_⟩
      · rw [ofBytes_of_wellFormed (Image.wellFormed_slices hfits), himage]
      · intro extra
        unfold ofBytes
        rw [Image.parse_of_fits (Image.fits_append hfits extra), Image.slices_append hfits]
        exact himage
    · intro other hsize hrest
      unfold ofBytes
      rw [Image.parse_of_rest hsize hrest]
  · intro image hwell hsupported
    obtain ⟨board, hboard⟩ := (exists_boardOf?_iff image).2 hsupported
    refine ⟨assemble image board, ?_, holds_finish hwell hboard⟩
    rw [ofBytes_of_wellFormed hwell]
    exact ofImage_of_board hboard

/-- An MMC3 image of one unit of program memory, with a trainer and without character memory. -/
def trainedImage : Image where
  header := ⟨1, 0, 4, .vertical, true, true⟩
  trainer := Array.replicate 512 0x7F
  prg := Array.replicate 0x4000 0x60
  chr := #[]

theorem wellFormed_trainedImage : trainedImage.WellFormed :=
  ⟨Array.size_replicate, Array.size_replicate, rfl⟩

/-- Eight kilobytes to write to and the trainer at `$7000`, whatever the first byte is and whatever
follows; the header alone is refused for the trainer. -/
theorem loads_exactly_trained : ∃ c, ofBytes trainedImage.bytes = .ok c ∧
    c.header = trainedImage.header ∧ c.board.prgRom = Array.replicate 0x4000 0x60 ∧
    c.board.chr.bytes = Array.replicate 8192 0 ∧
    (∃ ram, c.board.prgRam? = some ram ∧ ram.get 0x7000 = 0x7F ∧ ram.get 0x7200 = 0) ∧
    ofBytes (trainedImage.bytes ++ #[1, 2, 3]) = .ok c ∧
    ofBytes (trainedImage.bytes.setIfInBounds 0 0) = .ok c ∧
    ofBytes trainedImage.header.bytes = .error (.truncated .trainer 512 0) := by
  obtain ⟨c, hc, hholds⟩ := loads_exactly.2 trainedImage wellFormed_trainedImage (by decide)
  obtain ⟨-, -, hsame, hmagic⟩ := loads_exactly.1 trainedImage.bytes
  obtain ⟨-, -, hextra⟩ := hsame c hc
  obtain ⟨ram, hram, hget⟩ := hholds.ram (by decide)
  refine ⟨c, hc, hholds.header, hholds.prg, hholds.chr, ⟨ram, hram, ?_, ?_⟩, hextra _, ?_, ?_⟩
  · rw [hget 0x7000 (by decide) (by decide), if_pos (by decide)]
    simp [trainedImage]
  · rw [hget 0x7200 (by decide) (by decide), if_neg (by decide)]
  · rw [hmagic _ Array.size_setIfInBounds, hc]
    intro i hi
    exact Array.getElem?_setIfInBounds_ne (by omega)
  · rw [(loads_exactly.1 _).2.1]
    decide

end Cartridge

end Nes
