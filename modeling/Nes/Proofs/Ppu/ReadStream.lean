import Nes.Proofs.Ppu.DataPort

/-!
# Reading the data register again and again

The address moves by one step of 1 or of 32 with each access and keeps fifteen bits, of which
fourteen count.  A stream of reads has no effect but on the address and the byte that is held back:
in the palette it gives the cells themselves, and everywhere else the byte that the read before has
fetched, be it from the patterns, from a nametable or from underneath the palette.  So a stream of
writes to the nametables is read back in order by a stream that starts where it started and is one
read longer.
-/

namespace Nes.Ppu

/-! ### Addresses -/

/-- Where `v` stands after so many accesses of the data register. -/
def vAfter (ppu : Ppu) : Nat → Nat
  | 0 => ppu.scroll.v.toNat
  | i + 1 => (ppu.vAfter i + if testBits ppu.control 0x04 then 32 else 1) % 0x8000

/-- The address that the access after these is for. -/
def addrAfter (ppu : Ppu) (i : Nat) : UInt16 := UInt16.ofNat (ppu.vAfter i) &&& 0x3FFF

theorem ofNat_vAfter_zero (ppu : Ppu) : UInt16.ofNat (ppu.vAfter 0) = ppu.scroll.v :=
  UInt16.ofNat_toNat

theorem vAfter_succ (ppu : Ppu) (i : Nat) :
    ppu.vAfter (i + 1) = (ppu.vAfter i + ppu.dataStep.toNat) % 0x8000 := by
  rw [vAfter]
  unfold dataStep
  split <;> rfl

theorem vAfter_lt (ppu : Ppu) (i : Nat) : ppu.vAfter i < UInt16.size := by
  cases i with
  | zero => exact ppu.scroll.v.toNat_lt
  | succ i => exact Nat.lt_trans (Nat.mod_lt _ (by decide)) (by decide)

theorem toNat_ofNat_vAfter (ppu : Ppu) (i : Nat) :
    (UInt16.ofNat (ppu.vAfter i)).toNat = ppu.vAfter i :=
  UInt16.toNat_ofNat_of_lt' (ppu.vAfter_lt i)

theorem toNat_addrAfter (ppu : Ppu) (i : Nat) : (ppu.addrAfter i).toNat = ppu.vAfter i % 0x4000 := by
  have haddr : (ppu.addrAfter i).toNat = (UInt16.ofNat (ppu.vAfter i)).toNat % 0x4000 :=
    toNat_dataAddr { ppu with scroll := { ppu.scroll with v := UInt16.ofNat (ppu.vAfter i) } }
  rw [haddr, toNat_ofNat_vAfter]

theorem addrAfter_zero (ppu : Ppu) : ppu.addrAfter 0 = ppu.dataAddr := by
  unfold addrAfter
  rw [ofNat_vAfter_zero]
  rfl

theorem toNat_addrAfter_succ (ppu : Ppu) (i : Nat) : (ppu.addrAfter (i + 1)).toNat =
    ((ppu.addrAfter i).toNat + ppu.dataStep.toNat) % 0x4000 := by
  rw [toNat_addrAfter, toNat_addrAfter, vAfter_succ]
  omega

theorem addrAfter_congr {ppu other : Ppu} (haddr : ppu.dataAddr = other.dataAddr)
    (hstep : ppu.dataStep = other.dataStep) (i : Nat) : ppu.addrAfter i = other.addrAfter i := by
  induction i with
  | zero => rw [addrAfter_zero, addrAfter_zero, haddr]
  | succ i ih =>
    apply UInt16.toNat_inj.1
    rw [toNat_addrAfter_succ, toNat_addrAfter_succ, ih, hstep]

theorem addrAfter_lt_succ (ppu : Ppu) {i : Nat} (h : ppu.addrAfter i < 0x3F00) :
    (ppu.addrAfter i).toNat < (ppu.addrAfter (i + 1)).toNat := by
  have hstep := ppu.toNat_dataStep
  rw [UInt16.lt_iff_toNat_lt] at h
  simp only [UInt16.reduceToNat] at h
  rw [toNat_addrAfter_succ]
  omega

/-- Below the palette a stream runs upward without a turn. -/
theorem addrAfter_strictMono (ppu : Ppu) {n : Nat} (h : ∀ i < n, ppu.addrAfter i < 0x3F00) {i : Nat}
    (hi : i < n) : (ppu.addrAfter i).toNat < (ppu.addrAfter n).toNat := by
  induction n with
  | zero => omega
  | succ n ih =>
    have hlast := ppu.addrAfter_lt_succ (h n (Nat.lt_succ_self n))
    rcases Nat.lt_succ_iff_lt_or_eq.1 hi with hlt | rfl
    · have hbefore := ih (fun k hk => h k (Nat.lt_succ_of_lt hk)) hlt
      exact Nat.lt_trans hbefore hlast
    · exact hlast

theorem advance_vAfter (ppu : Ppu) (i : Nat) :
    Scroll.advance { ppu.scroll with v := UInt16.ofNat (ppu.vAfter i) } ppu.dataStep =
      { ppu.scroll with v := UInt16.ofNat (ppu.vAfter (i + 1)) } := by
  have hv : (UInt16.ofNat (ppu.vAfter i) + ppu.dataStep) &&& 0x7FFF =
      UInt16.ofNat (ppu.vAfter (i + 1)) := by
    have hadvanced := Scroll.toNat_advance ⟨UInt16.ofNat (ppu.vAfter i), 0, 0, false⟩ ppu.dataStep
    rw [toNat_ofNat_vAfter, ← vAfter_succ] at hadvanced
    rw [← hadvanced, UInt16.ofNat_toNat]
    rfl
  unfold Scroll.advance
  rw [hv]

/-! ### Reads -/

/-- The byte that a read at an address fetches. -/
def fetchedAt (s : Picture) (a : UInt16) : UInt8 :=
  if a < 0x2000 then s.2.ppuRead a
  else if a < 0x3F00 then s.1.vram.get a
  else s.1.vram.get (a - 0x1000)

def heldAfter (s : Picture) : Nat → UInt8
  | 0 => s.1.buffer
  | i + 1 => fetchedAt s (s.1.addrAfter i)

def afterReads (s : Picture) (n : Nat) : Picture := run s (List.replicate n (.readRegister 7))

/-- The answer of a read that comes after so many others. -/
def answerAfter (s : Picture) (i : Nat) : UInt8 :=
  ((afterReads s i).1.readRegister (afterReads s i).2 7).1

theorem fetch_under_palette (ppu : Ppu) (board : Board) {addr : UInt16} (hup : 0x3F00 ≤ addr) :
    ppu.fetch board (addr - 0x1000) = ppu.vram.get (addr - 0x1000) := by
  apply if_neg
  have hlt := addr.toNat_lt
  simp only [UInt16.lt_iff_toNat_lt, UInt16.le_iff_toNat_le, UInt16.toNat_sub,
    UInt16.reduceToNat] at hup ⊢
  omega

theorem readData_fetched (s : Picture) : s.1.readData s.2 =
    (if s.1.dataAddr < 0x3F00 then s.1.buffer else s.1.palette.get (Palette.cell s.1.dataAddr),
      { s.1 with
        scroll := s.1.scroll.advance s.1.dataStep
        buffer := fetchedAt s s.1.dataAddr }) := by
  unfold fetchedAt readData
  dsimp only
  split
  case isTrue hbelow => rfl
  case isFalse hup =>
    have hpatterns : ¬ s.1.dataAddr < 0x2000 := fun h => hup (UInt16.lt_trans h (by decide))
    rw [if_neg hpatterns, s.1.fetch_under_palette s.2 (UInt16.not_lt.1 hup)]

/-- A stream of reads moves the address and changes the byte held back, and nothing else. -/
theorem afterReads_eq (s : Picture) (n : Nat) : afterReads s n = ({ s.1 with
    scroll := { s.1.scroll with v := UInt16.ofNat (s.1.vAfter n) }
    buffer := heldAfter s n }, s.2) := by
  induction n with
  | zero =>
    rw [ofNat_vAfter_zero]
    rfl
  | succ n ih =>
    have hlast : afterReads s (n + 1) = apply (afterReads s n) (.readRegister 7) := by
      unfold afterReads
      rw [List.replicate_succ', run_snoc]
    rw [hlast, ih, ← advance_vAfter]
    show ((Ppu.readData _ s.2).2, s.2) = _
    rw [readData_fetched (_, s.2)]
    rfl

theorem answerAfter_eq (s : Picture) (i : Nat) : answerAfter s i =
    if s.1.addrAfter i < 0x3F00 then heldAfter s i
    else s.1.palette.get (Palette.cell (s.1.addrAfter i)) := by
  unfold answerAfter
  rw [afterReads_eq]
  show (Ppu.readData _ s.2).1 = _
  rw [readData_fetched (_, s.2)]
  rfl

/-! ### Writes -/

def Op.writesData : Op → Bool
  | .writeRegister number _ => number &&& 7 == 7
  | _ => false

def afterWrites (s : Picture) (bytes : List UInt8) : Picture :=
  run s (bytes.map (.writeRegister 7))

theorem afterWrites_snoc (s : Picture) (bytes : List UInt8) (b : UInt8) :
    afterWrites s (bytes ++ [b]) = apply (afterWrites s bytes) (.writeRegister 7 b) := by
  unfold afterWrites
  rw [List.map_append, List.map_singleton, run_snoc]

theorem pointed_afterWrites (s : Picture) (bytes : List UInt8) :
    (afterWrites s bytes).1.scroll =
        { s.1.scroll with v := UInt16.ofNat (s.1.vAfter bytes.length) } ∧
      (afterWrites s bytes).1.control = s.1.control := by
  induction bytes using List.reverseRecOn with
  | nil =>
    rw [List.length_nil, ofNat_vAfter_zero]
    exact ⟨rfl, rfl⟩
  | append_singleton bytes b ih =>
    obtain ⟨hscroll, hcontrol⟩ := ih
    have hstep : (afterWrites s bytes).1.dataStep = s.1.dataStep := by
      unfold dataStep
      rw [hcontrol]
    obtain ⟨_, _, _, _, _, hwrite, -⟩ :=
      (afterWrites s bytes).1.writeRegister_eq (afterWrites s bytes).2 7 b
    rw [afterWrites_snoc, List.length_append, List.length_singleton, ← advance_vAfter, ← hscroll,
      ← hstep]
    constructor
    · exact scroll_writeRegister _ _ 7 b
    · rw [apply, hwrite]
      exact hcontrol

/-- What is written to the nametables in a stream stays where it was written. -/
theorem vram_afterWrites (s : Picture) (bytes : List UInt8)
    (h : ∀ i < bytes.length, 0x2000 ≤ s.1.addrAfter i ∧ s.1.addrAfter i < 0x3F00) {i : Nat}
    (hi : i < bytes.length) : (afterWrites s bytes).1.vram.get (s.1.addrAfter i) = bytes[i] := by
  induction bytes using List.reverseRecOn with
  | nil => cases hi
  | append_singleton bytes b ih =>
    have hlength : (bytes ++ [b]).length = bytes.length + 1 := List.length_append
    have haddr : (afterWrites s bytes).1.dataAddr = s.1.addrAfter bytes.length := by
      unfold dataAddr
      rw [(pointed_afterWrites s bytes).1]
      rfl
    have hstore : Op.store? (.writeRegister 7 b) (afterWrites s bytes).1 =
        some (s.1.addrAfter bytes.length, b) := by
      rw [← haddr]
      rfl
    rw [afterWrites_snoc, (memories_apply _ _).1, hstore]
    dsimp only
    rw [if_pos (h bytes.length (by omega))]
    rcases Nat.lt_succ_iff_lt_or_eq.1 (hlength ▸ hi) with hbefore | rfl
    · -- The last write is above all the others and does not reach their cells.
      have hbelow : ∀ k < bytes.length, s.1.addrAfter k < 0x3F00 :=
        fun k hk => (h k (by omega)).2
      have hascends := s.1.addrAfter_strictMono hbelow hbefore
      have hlast := UInt16.lt_iff_toNat_lt.1 (h bytes.length (by omega)).2
      simp only [UInt16.reduceToNat] at hlast
      rw [Memory.get_set_of_mod_ne _ _ (by omega), List.getElem_append_left hbefore]
      exact ih (fun k hk => h k (by omega)) hbefore
    · rw [Memory.get_set_self]
      simp

theorem vram_run_of_no_write (s : Picture) (ops : List Op) (h : ∀ op ∈ ops, op.writesData = false) :
    (run s ops).1.vram = s.1.vram := by
  induction ops using List.reverseRecOn with
  | nil => rfl
  | append_singleton ops op ih =>
    have hstore : op.store? (run s ops).1 = none := by
      have hop := h op (List.mem_append_right _ List.mem_cons_self)
      cases op with
      | writeRegister number b => exact if_neg (beq_eq_false_iff_ne.1 hop)
      | _ => rfl
    rw [run_snoc, (memories_apply _ op).1, hstore]
    exact ih fun other hother => h other (List.mem_append_left _ hother)

/-! ### Reading back -/

theorem answerAfter_written (s : Picture) {bytes : List UInt8} {between : List Op}
    (hbetween : ∀ op ∈ between, op.writesData = false)
    (haddr : (run (afterWrites s bytes) between).1.dataAddr = s.1.dataAddr)
    (hstep : (run (afterWrites s bytes) between).1.dataStep = s.1.dataStep)
    (hnames : ∀ i ≤ bytes.length, 0x2000 ≤ s.1.addrAfter i ∧ s.1.addrAfter i < 0x3F00) {i : Nat}
    (hi : i < bytes.length) :
    answerAfter (run (afterWrites s bytes) between) (i + 1) = bytes[i] := by
  have hsame := addrAfter_congr haddr hstep
  have hvram := vram_run_of_no_write (afterWrites s bytes) between hbetween
  have hwritten := vram_afterWrites s bytes (fun k hk => hnames k (Nat.le_of_lt hk)) hi
  obtain ⟨hlow, hhigh⟩ := hnames i (Nat.le_of_lt hi)
  rw [answerAfter_eq, hsame, if_pos (hnames (i + 1) hi).2]
  show fetchedAt _ _ = _
  unfold fetchedAt
  rw [hsame, if_neg (UInt16.not_lt.2 hlow), if_pos hhigh, hvram, hwritten]

/-- Of a stream of reads each answers with a cell of the palette or with the byte fetched by the
one before, and the unit and the board stay as they are but for the address and the byte held back.
What a stream of writes has left in the nametables is read back in order, one read late. -/
theorem reads_lag_by_one (s : Picture) :
    (∀ i, answerAfter s i = if s.1.addrAfter i < 0x3F00 then heldAfter s i
      else s.1.palette.get (Palette.cell (s.1.addrAfter i))) ∧
    (∀ n, afterReads s n = ({ s.1 with
      scroll := { s.1.scroll with v := UInt16.ofNat (s.1.vAfter n) }
      buffer := heldAfter s n }, s.2)) ∧
    (∀ (bytes : List UInt8) (between : List Op), (∀ op ∈ between, op.writesData = false) →
      let restarted := run (afterWrites s bytes) between
      restarted.1.dataAddr = s.1.dataAddr → restarted.1.dataStep = s.1.dataStep →
      (∀ i ≤ bytes.length, 0x2000 ≤ s.1.addrAfter i ∧ s.1.addrAfter i < 0x3F00) →
      (List.range (bytes.length + 1)).map (answerAfter restarted) =
        restarted.1.buffer :: bytes) := by
  refine ⟨answerAfter_eq s, afterReads_eq s, ?_⟩
  intro bytes between hbetween restarted haddr hstep hnames
  have hfirst : answerAfter restarted 0 = restarted.1.buffer := by
    rw [answerAfter_eq, addrAfter_congr haddr hstep, if_pos (hnames 0 (Nat.zero_le _)).2]
    rfl
  rw [List.range_succ_eq_map, List.map_cons, List.map_map, hfirst]
  congr 1
  apply List.ext_getElem
  · simp
  · intro i hi hi'
    simp only [List.getElem_map, List.getElem_range, Function.comp_apply]
    exact answerAfter_written s hbetween haddr hstep hnames hi'

/-- Three bytes written 32 apart, over the edge of a nametable, and read back. -/
theorem three_bytes_read_back :
    let start := run (powerOn, blankBoard) (.writeRegister 0 0x04 :: pointing 0x23DF)
    let restarted := run (afterWrites start [0x5A, 0xC3, 0x17]) (pointing 0x23DF)
    start.1.addrAfter 3 = 0x243F ∧
      (List.range 4).map (answerAfter restarted) = [0, 0x5A, 0xC3, 0x17] := by
  intro start restarted
  have hread := (reads_lag_by_one start).2.2 [0x5A, 0xC3, 0x17] (pointing 0x23DF) (by decide)
    (by decide +kernel) (by decide +kernel) (by decide +kernel)
  have hheld : restarted.1.buffer = 0 := by decide +kernel
  rw [← hheld]
  exact ⟨by decide +kernel, hread⟩

end Nes.Ppu
