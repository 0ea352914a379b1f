import Nes.Proofs.Mmc3.BankHistory

/-!
# The two sides of the bank registers

Registers zero to five place character memory, six and seven program memory.  Each data byte lays
all windows out anew, also those that its own register has no part in.  These stay where they are
if they stood where the registers and the mode bits put them, and move otherwise: the first data
byte ends the layout of power on, and the first one after a bank select that turns a mode bit over
swaps the windows of that mode.
-/

namespace Nes.Mmc3

/-! ### What happens to a board on a cartridge -/

/-- An operation, or a change of the memory at `$6000` from outside. -/
inductive Event
  | op (op : Op)
  | loadRam (change : PrgRam → PrgRam)

def Event.op? : Event → Option Op
  | .op o => some o
  | .loadRam _ => none

def happen (b : Mmc3) : Event → Mmc3
  | .op op => b.apply op
  | .loadRam change => { b with ram := change b.ram }

def after (b : Mmc3) (events : List Event) : Mmc3 := events.foldl happen b

theorem apply_withRam (b : Mmc3) (ram : PrgRam) (op : Op) :
    ∃ ram', Mmc3.apply { b with ram } op = { b.apply op with ram := ram' } := by
  cases op with
  | cpuWrite addr v =>
    unfold apply cpuWrite
    dsimp only
    split
    · exact ⟨ram, rfl⟩
    split
    · exact ⟨ram.set addr v, rfl⟩
    · cases Register.ofAddr addr <;> exact ⟨ram, rfl⟩
  | ppuWrite addr v =>
    unfold apply ppuWrite
    dsimp only
    split <;> exact ⟨ram, rfl⟩
  | clock => exact ⟨ram, rfl⟩

/-- The memory at `$6000` apart, a board is where its operations alone would have brought it. -/
theorem after_eq_run (b : Mmc3) (events : List Event) :
    ∃ ram, b.after events = { b.run (events.filterMap Event.op?) with ram } := by
  induction events using List.reverseRecOn with
  | nil => exact ⟨b.ram, rfl⟩
  | append_singleton events event ih =>
    obtain ⟨ram, ih⟩ := ih
    have hlast : b.after (events ++ [event]) = (b.after events).happen event := by
      unfold after
      rw [List.foldl_append]
      rfl
    rw [hlast, ih, List.filterMap_append]
    cases event with
    | op op =>
      rw [show [Event.op op].filterMap Event.op? = [op] from rfl, run_snoc]
      obtain ⟨ram', hop⟩ := apply_withRam (b.run (events.filterMap Event.op?)) ram op
      refine ⟨ram', ?_⟩
      show Mmc3.apply _ op = _
      rw [hop]
    | loadRam change =>
      refine ⟨change ram, ?_⟩
      rw [show [Event.loadRam change].filterMap Event.op? = [] from rfl, List.append_nil]
      rfl

/-! ### Layouts -/

variable {n c : Nat} {b : Banks} {ops : List Op}

theorem prgWindows_set (r : Vector UInt8 8) (v : UInt8) {i : Fin 8} (hi : i.val < 6)
    (swapped : Bool) (n : Nat) :
    prgWindows swapped n (r.set i v) = prgWindows swapped n r := by
  have hkept : ∀ (j : Nat) (hj : j < 8), 6 ≤ j → (r.set i v)[j] = r[j] := by
    intro j hj hge
    exact Vector.getElem_set_ne _ _ (by omega)
  unfold prgWindows
  rw [hkept 6 (by omega) (by omega), hkept 7 (by omega) (by omega)]

theorem chrWindows_set (r : Vector UInt8 8) (v : UInt8) {i : Fin 8} (hi : 6 ≤ i.val)
    (swapped : Bool) (c : Nat) :
    chrWindows swapped c (r.set i v) = chrWindows swapped c r := by
  have hkept : ∀ (j : Nat) (hj : j < 8), j < 6 → (r.set i v)[j] = r[j] := by
    intro j hj hlt
    exact Vector.getElem_set_ne _ _ (by omega)
  unfold chrWindows
  rw [hkept 0 (by omega) (by omega), hkept 1 (by omega) (by omega), hkept 2 (by omega) (by omega),
    hkept 3 (by omega) (by omega), hkept 4 (by omega) (by omega), hkept 5 (by omega) (by omega)]

theorem prgWindows_eq_iff (h : Follows n c b ops) (s t : Bool) :
    prgWindows s n b.registers = prgWindows t n b.registers ↔
      s = t ∨ (held ops 6).toNat % n = n - 2 := by
  have h6 : b.registers[6] = held ops 6 := h.registers 6
  have hswap : prgWindows true n b.registers = prgWindows false n b.registers ↔
      (held ops 6).toNat % n = n - 2 := by
    rw [← h6]
    constructor
    · intro heq
      exact (congrArg (fun w : Vector Nat 4 => w[0]) heq).symm
    · intro heq
      unfold prgWindows
      rw [heq]
      rfl
  cases s <;> cases t
  · simp
  · rw [eq_comm, hswap]
    simp
  · rw [hswap]
    simp
  · simp

/-- The four banks of registers zero and one are those of registers two to five. -/
def SameHalves (c : Nat) (ops : List Op) : Prop :=
  (held ops 0 &&& 0xFE).toNat % c = (held ops 2).toNat % c ∧
    (held ops 0 ||| 0x01).toNat % c = (held ops 3).toNat % c ∧
    (held ops 1 &&& 0xFE).toNat % c = (held ops 4).toNat % c ∧
    (held ops 1 ||| 0x01).toNat % c = (held ops 5).toNat % c

instance (c : Nat) (ops : List Op) : Decidable (SameHalves c ops) :=
  inferInstanceAs (Decidable (_ ∧ _ ∧ _ ∧ _))

theorem chrWindows_eq_iff (h : Follows n c b ops) (s t : Bool) :
    chrWindows s c b.registers = chrWindows t c b.registers ↔ s = t ∨ SameHalves c ops := by
  have h0 : b.registers[0] = held ops 0 := h.registers 0
  have h1 : b.registers[1] = held ops 1 := h.registers 1
  have h2 : b.registers[2] = held ops 2 := h.registers 2
  have h3 : b.registers[3] = held ops 3 := h.registers 3
  have h4 : b.registers[4] = held ops 4 := h.registers 4
  have h5 : b.registers[5] = held ops 5 := h.registers 5
  have hswap : chrWindows false c b.registers = chrWindows true c b.registers ↔
      SameHalves c ops := by
    unfold chrWindows SameHalves
    rw [h0, h1, h2, h3, h4, h5]
    constructor
    · intro heq
      exact ⟨congrArg (fun w : Vector Nat 8 => w[0]) heq,
        congrArg (fun w : Vector Nat 8 => w[1]) heq, congrArg (fun w : Vector Nat 8 => w[2]) heq,
        congrArg (fun w : Vector Nat 8 => w[3]) heq⟩
    · rintro ⟨hfirst, hsecond, hthird, hfourth⟩
      dsimp only
      rw [hfirst, hsecond, hthird, hfourth]
      rfl
  cases s <;> cases t
  · simp
  · rw [hswap]
    simp
  · rw [eq_comm, hswap]
    simp
  · simp

theorem held_of_no_data (hnone : (dataWrites ops).getLast? = none) (i : Nat) :
    held ops i = 0 := by
  unfold held
  rw [List.getLast?_eq_none_iff.1 hnone]
  rfl

theorem prgWindows_powerOn_iff (h : Follows n c b ops) (hn : 0 < n)
    (hnone : (dataWrites ops).getLast? = none) (s : Bool) :
    prgWindows s n b.registers = (Windows.powerOn n).prg ↔ n = 1 := by
  have h6 : b.registers[6] = 0 := (h.registers 6).trans (held_of_no_data hnone 6)
  have h7 : b.registers[7] = 0 := (h.registers 7).trans (held_of_no_data hnone 7)
  have hzero : (0 : UInt8).toNat % n = 0 := Nat.zero_mod n
  constructor
  · intro heq
    have hsecond : (prgWindows s n b.registers)[1] = 1 % n :=
      congrArg (fun w : Vector Nat 4 => w[1]) heq
    have hlayout : (prgWindows s n b.registers)[1] = 0 := by
      unfold prgWindows
      rw [h6, h7, hzero]
      cases s <;> rfl
    rw [hlayout] at hsecond
    exact Nat.dvd_one.1 (Nat.dvd_of_mod_eq_zero hsecond.symm)
  · rintro rfl
    unfold prgWindows
    rw [h6, h7, hzero]
    cases s <;> rfl

theorem chrWindows_powerOn_iff (h : Follows n c b ops)
    (hnone : (dataWrites ops).getLast? = none) (s : Bool) :
    chrWindows s c b.registers = (Windows.powerOn n).chr ↔ c = 1 := by
  have hzero : b.registers = .replicate 8 0 := by
    refine Vector.ext fun i hi => ?_
    rw [Vector.getElem_replicate]
    exact (h.registers ⟨i, hi⟩).trans (held_of_no_data hnone i)
  rw [hzero]
  constructor
  · intro heq
    have hodd : 1 % c = 0 := by
      cases s with
      | false => exact congrArg (fun w : Vector Nat 8 => w[1]) heq
      | true => exact congrArg (fun w : Vector Nat 8 => w[5]) heq
    exact Nat.dvd_one.1 (Nat.dvd_of_mod_eq_zero hodd)
  · rintro rfl
    cases s <;> rfl

/-! ### Settled windows -/

/-- The windows of program memory are where the registers and the mode bit put them. -/
def PrgSettled (n : Nat) (ops : List Op) : Prop :=
  match (dataWrites ops).getLast? with
  | none => n = 1
  | some (select, _) =>
    testBits (lastSelect ops) 0x40 = testBits select 0x40 ∨ (held ops 6).toNat % n = n - 2

/-- The windows of character memory are where the registers and the mode bit put them. -/
def ChrSettled (c : Nat) (ops : List Op) : Prop :=
  match (dataWrites ops).getLast? with
  | none => c = 1
  | some (select, _) =>
    testBits (lastSelect ops) 0x80 = testBits select 0x80 ∨ SameHalves c ops

theorem Follows.windows_powerOn (h : Follows n c b ops)
    (hnone : (dataWrites ops).getLast? = none) : b.windows = .powerOn n := by
  rw [h.windows]
  unfold windowsAfter
  rw [hnone]
  rfl

/-- A data byte for the other side leaves the windows of program memory exactly if they were
settled. -/
theorem prg_write_iff (h : Follows n c b ops) (hn : 0 < n) (hi : b.select.index.val < 6)
    (v : UInt8) : (b.write n c v).windows.prg = b.windows.prg ↔ PrgSettled n ops := by
  have hmode : b.select.prgSwapped = testBits (lastSelect ops) 0x40 := by
    rw [h.select]
    rfl
  have hwritten : (b.write n c v).windows.prg =
      prgWindows (testBits (lastSelect ops) 0x40) n b.registers := by
    rw [Banks.windows_write, ← hmode]
    exact prgWindows_set _ v hi _ n
  rw [hwritten]
  unfold PrgSettled
  cases hlast : (dataWrites ops).getLast? with
  | none =>
    rw [h.windows_powerOn hlast]
    exact prgWindows_powerOn_iff h hn hlast _
  | some write =>
    obtain ⟨select, byte⟩ := write
    have hbefore : b.windows.prg = prgWindows (testBits select 0x40) n b.registers := by
      rw [h.windows, windowsAfter_layout n c h.registers hlast]
    rw [hbefore, prgWindows_eq_iff h]

theorem chr_write_iff (h : Follows n c b ops) (hi : 6 ≤ b.select.index.val) (v : UInt8) :
    (b.write n c v).windows.chr = b.windows.chr ↔ ChrSettled c ops := by
  have hmode : b.select.chrSwapped = testBits (lastSelect ops) 0x80 := by
    rw [h.select]
    rfl
  have hwritten : (b.write n c v).windows.chr =
      chrWindows (testBits (lastSelect ops) 0x80) c b.registers := by
    rw [Banks.windows_write, ← hmode]
    exact chrWindows_set _ v hi _ c
  rw [hwritten]
  unfold ChrSettled
  cases hlast : (dataWrites ops).getLast? with
  | none =>
    rw [h.windows_powerOn hlast]
    exact chrWindows_powerOn_iff h hlast _
  | some write =>
    obtain ⟨select, byte⟩ := write
    have hbefore : b.windows.chr = chrWindows (testBits select 0x80) c b.registers := by
      rw [h.windows, windowsAfter_layout n c h.registers hlast]
    rw [hbefore, chrWindows_eq_iff h]

/-! ### Reads of the other side -/

theorem cpuRead_congr {b other : Mmc3} (hprg : b.prg = other.prg) (hram : b.ram = other.ram)
    (hwindows : b.banks.windows.prg = other.banks.windows.prg) (addr : UInt16) :
    b.cpuRead addr = other.cpuRead addr := by
  unfold cpuRead prgOffset
  simp only [hprg, hram, hwindows]

theorem ppuRead_congr {b other : Mmc3} (hchr : b.chr = other.chr)
    (hwindows : b.banks.windows.chr = other.banks.windows.chr) (addr : UInt16) :
    b.ppuRead addr = other.ppuRead addr := by
  unfold ppuRead chrOffset
  simp only [hchr, hwindows]

/-- The board after a byte written to bank data. -/
def writeData (b : Mmc3) (v : UInt8) : Mmc3 :=
  { b with banks := b.banks.write b.prgBanks b.chrBanks v }

theorem cpuWrite_data (b : Mmc3) {addr : UInt16} (v : UInt8) (hlow : 0x8000 ≤ addr)
    (hhigh : addr ≤ 0x9FFF) (hodd : addr % 2 = 1) : b.cpuWrite addr v = b.writeData v := by
  have hne : addr % 2 ≠ 0 := by
    rw [hodd]
    decide
  rw [cpuWrite_register b v hlow, ofAddr_bankData (lt_bankEnd hhigh) hne]
  rfl

theorem cpuRead_writeData {b : Mmc3} (h : Follows b.prgBanks b.chrBanks b.banks ops)
    (hi : b.banks.select.index.val < 6) (v : UInt8) (hsettled : PrgSettled b.prgBanks ops)
    (addr : UInt16) : (b.writeData v).cpuRead addr = b.cpuRead addr := by
  have hwindows : (b.writeData v).banks.windows.prg = b.banks.windows.prg :=
    (prg_write_iff h (bankCount_pos _ _) hi v).2 hsettled
  have hprg : (b.writeData v).prg = b.prg := rfl
  have hram : (b.writeData v).ram = b.ram := rfl
  exact cpuRead_congr hprg hram hwindows addr

theorem ppuRead_writeData {b : Mmc3} (h : Follows b.prgBanks b.chrBanks b.banks ops)
    (hi : 6 ≤ b.banks.select.index.val) (v : UInt8) (hsettled : ChrSettled b.chrBanks ops)
    (addr : UInt16) : (b.writeData v).ppuRead addr = b.ppuRead addr := by
  have hwindows : (b.writeData v).banks.windows.chr = b.banks.windows.chr :=
    (chr_write_iff h hi v).2 hsettled
  have hchr : (b.writeData v).chr = b.chr := rfl
  exact ppuRead_congr hchr hwindows addr

theorem follows_after (prg : Array UInt8) (chr : Chr) (mirroring : Mirroring)
    (events : List Event) :
    let b := (powerOn prg chr mirroring).after events
    b.prgBanks = bankCount prg.size 0x2000 ∧ b.chrBanks = bankCount chr.bytes.size 0x400 ∧
      Follows b.prgBanks b.chrBanks b.banks (events.filterMap Event.op?) := by
  intro b
  obtain ⟨ram, hrun⟩ := after_eq_run (powerOn prg chr mirroring) events
  have hprg : b.prgBanks = bankCount prg.size 0x2000 := by
    show (after _ _).prgBanks = _
    rw [hrun]
    exact prgBanks_run _ _
  have hchr : b.chrBanks = bankCount chr.bytes.size 0x400 := by
    show (after _ _).chrBanks = _
    rw [hrun]
    exact chrBanks_run _ _
  refine ⟨hprg, hchr, ?_⟩
  rw [hprg, hchr]
  show Follows _ _ (after _ _).banks _
  rw [hrun]
  exact follows_run prg chr mirroring _

/-- Whatever happened to a board since power on, a data byte for character memory leaves the
windows of program memory exactly if they were settled, and then every byte that the processor
reads; a data byte for program memory does the same for character memory. -/
theorem bank_data_keeps_other_side_iff (prg : Array UInt8) (chr : Chr) (mirroring : Mirroring)
    (events : List Event) {addr : UInt16} (v : UInt8) (hlow : 0x8000 ≤ addr) (hhigh : addr ≤ 0x9FFF)
    (hodd : addr % 2 = 1) :
    let b := (powerOn prg chr mirroring).after events
    let ops := events.filterMap Event.op?
    let settledPrg := PrgSettled (max 1 (prg.size / 0x2000)) ops
    let settledChr := ChrSettled (max 1 (chr.bytes.size / 0x400)) ops
    (b.banks.select.index.val < 6 →
      ((b.cpuWrite addr v).banks.windows.prg = b.banks.windows.prg ↔ settledPrg) ∧
      (settledPrg → ∀ a, (b.cpuWrite addr v).cpuRead a = b.cpuRead a)) ∧
    (6 ≤ b.banks.select.index.val →
      ((b.cpuWrite addr v).banks.windows.chr = b.banks.windows.chr ↔ settledChr) ∧
      (settledChr → ∀ a, (b.cpuWrite addr v).ppuRead a = b.ppuRead a)) := by
  intro b ops settledPrg settledChr
  obtain ⟨hprg, hchr, hfollows⟩ := follows_after prg chr mirroring events
  have hsettledPrg : settledPrg ↔ PrgSettled b.prgBanks ops := by
    rw [show b.prgBanks = _ from hprg]
    exact Iff.rfl
  have hsettledChr : settledChr ↔ ChrSettled b.chrBanks ops := by
    rw [show b.chrBanks = _ from hchr]
    exact Iff.rfl
  rw [b.cpuWrite_data v hlow hhigh hodd, hsettledPrg, hsettledChr]
  constructor
  · intro hi
    exact ⟨prg_write_iff hfollows (bankCount_pos _ _) hi v, cpuRead_writeData hfollows hi v⟩
  · intro hi
    exact ⟨chr_write_iff hfollows hi v, ppuRead_writeData hfollows hi v⟩

/-! ### A board of two banks on each side -/

/-- Two banks, one of zeros and one of ones. -/
def twoBanks (size : Nat) : Array UInt8 := .replicate size 0 ++ .replicate size 1

theorem size_twoBanks (size : Nat) : (twoBanks size).size = size + size := by
  unfold twoBanks
  rw [Array.size_append, Array.size_replicate, Array.size_replicate]

theorem romByte_twoBanks {size : Nat} (hsize : 0 < size) (bank : Fin 2) :
    romByte (twoBanks size) (bank.val * size + 0) = UInt8.ofNat bank.val := by
  unfold romByte twoBanks
  rw [Array.getD_eq_getD_getElem?]
  match bank with
  | 0 =>
    rw [Array.getElem?_append_left (by simpa using hsize)]
    simp [hsize]
  | 1 => simp [hsize]

def twoSided : Mmc3 := powerOn (twoBanks 0x2000) ⟨twoBanks 0x400, false⟩ .horizontal

theorem windows_twoSided (ops : List Op) :
    (twoSided.run ops).banks.windows = windowsAfter 2 2 ops := by
  have hn : bankCount (twoBanks 0x2000).size 0x2000 = 2 := by
    rw [size_twoBanks]
    rfl
  have hc : bankCount (twoBanks 0x400).size 0x400 = 2 := by
    rw [size_twoBanks]
    rfl
  have hf := follows_run (twoBanks 0x2000) ⟨twoBanks 0x400, false⟩ .horizontal ops
  rw [hn, hc] at hf
  exact hf.windows

theorem cpuRead_twoSided (ops : List Op) (k : Fin 4) (bank : Fin 2)
    (h : (windowsAfter 2 2 ops).prg.get k = bank.val) :
    (twoSided.run ops).cpuRead (UInt16.ofNat (0x8000 + k * 0x2000 + 0)) = UInt8.ofNat bank.val := by
  have hprg : (twoSided.run ops).prg = twoBanks 0x2000 := prg_run _ _
  have hwindow : (twoSided.run ops).banks.windows.prg[k] = bank.val := by
    rw [windows_twoSided]
    exact h
  rw [cpuRead_window _ k 0 (by decide), hprg, hwindow]
  exact romByte_twoBanks (by decide) bank

theorem chr_run_of_rom {b : Mmc3} (h : b.chr.writable = false) (ops : List Op) :
    (b.run ops).chr = b.chr := by
  induction ops using List.reverseRecOn with
  | nil => rfl
  | append_singleton ops op ih =>
    rw [run_snoc]
    cases op with
    | cpuWrite addr v =>
      rw [← ih]
      exact chr_cpuWrite _ addr v
    | ppuWrite addr v =>
      show ((b.run ops).ppuWrite addr v).chr = b.chr
      rw [chr_ppuWrite, ih, Chr.write_of_not_writable _ _ _ h, ite_self]
    | clock => exact ih

theorem ppuRead_twoSided (ops : List Op) (k : Fin 8) (bank : Fin 2)
    (h : (windowsAfter 2 2 ops).chr.get k = bank.val) :
    (twoSided.run ops).ppuRead (UInt16.ofNat (k * 0x400 + 0)) = UInt8.ofNat bank.val := by
  have hchr : (twoSided.run ops).chr = ⟨twoBanks 0x400, false⟩ := chr_run_of_rom rfl ops
  have hwindow : (twoSided.run ops).banks.windows.chr[k] = bank.val := by
    rw [windows_twoSided]
    exact h
  rw [ppuRead_window _ k 0 (by decide), hchr, hwindow]
  exact romByte_twoBanks (by decide) bank

/-- On the first data byte of all, and on the first one after a mode bit was turned over, the other
side moves. -/
theorem bank_data_moves_other_side :
    let swapped := twoSided.run [.cpuWrite 0x8000 6, .cpuWrite 0x8001 1, .cpuWrite 0x8000 0x40]
    let patterns := twoSided.run [.cpuWrite 0x8000 6]
    (twoSided.banks.select.index.val < 6 ∧ twoSided.cpuRead 0xA000 = 1 ∧
      (twoSided.cpuWrite 0x8001 0).cpuRead 0xA000 = 0) ∧
    (swapped.banks.select.index.val < 6 ∧ swapped.cpuRead 0x8000 = 1 ∧
      (swapped.cpuWrite 0x8001 0).cpuRead 0x8000 = 0) ∧
    (6 ≤ patterns.banks.select.index.val ∧ patterns.ppuRead 0x0400 = 0 ∧
      (patterns.cpuWrite 0x8001 0).ppuRead 0x0400 = 1) := by
  intro swapped patterns
  have hselect : ∀ ops, (twoSided.run ops).banks.select = .ofByte (lastSelect ops) := fun ops =>
    (follows_run (twoBanks 0x2000) ⟨twoBanks 0x400, false⟩ .horizontal ops).select
  refine ⟨⟨by decide, ?_, ?_⟩, ⟨?_, ?_, ?_⟩, ⟨?_, ?_, ?_⟩⟩
  · exact cpuRead_twoSided [] 1 1 (by decide)
  · exact cpuRead_twoSided [.cpuWrite 0x8001 0] 1 0 (by decide)
  · rw [show swapped.banks.select = _ from hselect _]
    decide
  · exact cpuRead_twoSided [.cpuWrite 0x8000 6, .cpuWrite 0x8001 1, .cpuWrite 0x8000 0x40] 0 1
      (by decide)
  · exact cpuRead_twoSided
      [.cpuWrite 0x8000 6, .cpuWrite 0x8001 1, .cpuWrite 0x8000 0x40, .cpuWrite 0x8001 0] 0 0
      (by decide)
  · rw [show patterns.banks.select = _ from hselect _]
    decide
  · exact ppuRead_twoSided [.cpuWrite 0x8000 6] 1 0 (by decide)
  · exact ppuRead_twoSided [.cpuWrite 0x8000 6, .cpuWrite 0x8001 0] 1 1 (by decide)

/-- A second data byte moves nothing on the other side, whatever was put into the memory at `$6000`
before. -/
theorem bank_data_keeps_settled_side :
    let b := twoSided.after [.loadRam fun _ => .filled 7, .op (.cpuWrite 0x8001 1)]
    let patterns := twoSided.after [.op (.cpuWrite 0x8001 1), .op (.cpuWrite 0x8000 6)]
    (b.banks.select.index.val < 6 ∧ ∀ v a, (b.cpuWrite 0x9FFF v).cpuRead a = b.cpuRead a) ∧
    (6 ≤ patterns.banks.select.index.val ∧
      ∀ v a, (patterns.cpuWrite 0x9FFF v).ppuRead a = patterns.ppuRead a) := by
  intro b patterns
  have hselect : ∀ events : List Event, (twoSided.after events).banks.select =
      .ofByte (lastSelect (events.filterMap Event.op?)) := fun events =>
    (follows_after (twoBanks 0x2000) ⟨twoBanks 0x400, false⟩ .horizontal events).2.2.select
  have hb : b.banks.select.index.val < 6 := by
    rw [show b.banks.select = _ from hselect _]
    decide
  have hpatterns : 6 ≤ patterns.banks.select.index.val := by
    rw [show patterns.banks.select = _ from hselect _]
    decide
  have hlow : (0x8000 : UInt16) ≤ 0x9FFF := by decide
  have hhigh : (0x9FFF : UInt16) ≤ 0x9FFF := by decide
  have hodd : (0x9FFF : UInt16) % 2 = 1 := by decide
  refine ⟨⟨hb, fun v => ?_⟩, ⟨hpatterns, fun v => ?_⟩⟩
  · have hkept := bank_data_keeps_other_side_iff (twoBanks 0x2000) ⟨twoBanks 0x400, false⟩
      .horizontal [.loadRam fun _ => .filled 7, .op (.cpuWrite 0x8001 1)] v hlow hhigh hodd
    refine (hkept.1 hb).2 (.inl ?_)
    decide
  · have hkept := bank_data_keeps_other_side_iff (twoBanks 0x2000) ⟨twoBanks 0x400, false⟩
      .horizontal [.op (.cpuWrite 0x8001 1), .op (.cpuWrite 0x8000 6)] v hlow hhigh hodd
    refine (hkept.2 hpatterns).2 (.inl ?_)
    decide

end Nes.Mmc3
