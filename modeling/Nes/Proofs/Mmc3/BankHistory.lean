import Mathlib.Data.List.Basic
import Mathlib.Data.List.Induction
import Nes.Proofs.Mmc3.Run

/-!
# The bank windows as a function of the write history

The windows of an MMC3 follow from what was written between `$8000` and `$9FFF` alone.  A bank
register holds the last data byte that was written while it was selected.  The mode bits count as
they stood at the last data byte, so that a bank select write by itself moves nothing; before any
data byte the windows are those of power on.
-/

namespace Nes.Mmc3

/-! ### The history -/

/-- The byte that an operation writes to bank select: an even address in `$8000` to `$9FFF`. -/
def Op.select? : Op → Option UInt8
  | .cpuWrite addr v => if 0x8000 ≤ addr ∧ addr ≤ 0x9FFF ∧ addr % 2 = 0 then some v else none
  | _ => none

/-- The byte that an operation writes to bank data: an odd address in `$8000` to `$9FFF`. -/
def Op.data? : Op → Option UInt8
  | .cpuWrite addr v => if 0x8000 ≤ addr ∧ addr ≤ 0x9FFF ∧ addr % 2 = 1 then some v else none
  | _ => none

/-- The last byte written to bank select, zero before any was. -/
def lastSelect (ops : List Op) : UInt8 := (ops.filterMap Op.select?).getLast?.getD 0

/-- The bytes written to bank data, each after the bank select byte in force at its time. -/
def dataWrites (ops : List Op) : List (UInt8 × UInt8) :=
  (List.range ops.length).filterMap fun k =>
    (ops[k]?.bind Op.data?).map fun v => (lastSelect (ops.take k), v)

/-- The last data byte that was written while register `i` was selected, zero before any was. -/
def held (ops : List Op) (i : Nat) : UInt8 :=
  (((dataWrites ops).filter fun w => w.1.toNat % 8 = i).getLast?.map Prod.snd).getD 0

/-- The windows over `n` banks of program memory and `c` banks of character memory that a
history leads to. -/
def windowsAfter (n c : Nat) (ops : List Op) : Windows :=
  let r (i : Nat) : Nat := (held ops i).toNat
  let even (i : Nat) : Nat := (held ops i &&& 0xFE).toNat % c
  let odd (i : Nat) : Nat := (held ops i ||| 0x01).toNat % c
  match (dataWrites ops).getLast? with
  | none =>
    { prg := #v[0 % n, 1 % n, n - 2, n - 1]
      chr := #v[0, 0, 0, 0, 0, 0, 0, 0] }
  | some (select, _) =>
    { prg :=
        if testBits select 0x40 then #v[n - 2, r 7 % n, r 6 % n, n - 1]
        else #v[r 6 % n, r 7 % n, n - 2, n - 1]
      chr :=
        if testBits select 0x80 then
          #v[r 2 % c, r 3 % c, r 4 % c, r 5 % c, even 0, odd 0, even 1, odd 1]
        else #v[even 0, odd 0, even 1, odd 1, r 2 % c, r 3 % c, r 4 % c, r 5 % c] }

/-! ### One more operation in the history -/

theorem lastSelect_snoc (ops : List Op) (op : Op) :
    lastSelect (ops ++ [op]) = op.select?.getD (lastSelect ops) := by
  unfold lastSelect
  rw [List.filterMap_append]
  cases h : op.select? with
  | none => simp [h]
  | some v => simp [h]

theorem dataWrites_snoc (ops : List Op) (op : Op) :
    dataWrites (ops ++ [op]) =
      dataWrites ops ++ (op.data?.map fun v => (lastSelect ops, v)).toList := by
  have before : ∀ k ∈ List.range ops.length,
      (((ops ++ [op])[k]?.bind Op.data?).map fun v => (lastSelect ((ops ++ [op]).take k), v)) =
        (ops[k]?.bind Op.data?).map fun v => (lastSelect (ops.take k), v) := by
    intro k hk
    have hlt : k < ops.length := List.mem_range.1 hk
    rw [List.getElem?_append_left hlt, List.take_append_of_le_length (Nat.le_of_lt hlt)]
  have last : (ops ++ [op])[ops.length]? = some op := by simp
  unfold dataWrites
  rw [List.length_append, List.length_singleton, List.range_succ, List.filterMap_append,
    List.filterMap_congr before]
  congr 1
  rw [List.filterMap_cons, List.filterMap_nil, last, List.take_left]
  cases h : op.data? with
  | none => simp [h]
  | some v => simp [h]

theorem held_snoc (ops : List Op) (op : Op) (i : Nat) :
    held (ops ++ [op]) i =
      if (lastSelect ops).toNat % 8 = i then op.data?.getD (held ops i) else held ops i := by
  unfold held
  rw [dataWrites_snoc, List.filter_append]
  cases op.data? with
  | none => simp
  | some v =>
    by_cases hi : (lastSelect ops).toNat % 8 = i
    · simp [hi]
    · simp [hi]

/-! ### One more operation on the board -/

theorem not_lt_of_le {a b : UInt16} (h : a ≤ b) : ¬ b < a := by
  rw [UInt16.le_iff_toNat_le] at h
  rw [UInt16.lt_iff_toNat_lt]
  omega

theorem lt_bankEnd {addr : UInt16} (h : addr ≤ 0x9FFF) : addr < 0xA000 := by
  rw [UInt16.le_iff_toNat_le] at h
  rw [UInt16.lt_iff_toNat_lt]
  exact Nat.lt_of_le_of_lt h (by decide)

theorem cpuWrite_register (b : Mmc3) {addr : UInt16} (v : UInt8) (h : 0x8000 ≤ addr) :
    b.cpuWrite addr v = b.writeRegister (.ofAddr addr) v := by
  have h1 : ¬ addr < 0x6000 := fun hlt =>
    not_lt_of_le h (UInt16.lt_trans hlt (by decide))
  simp only [cpuWrite, h1, not_lt_of_le h, ite_false]

theorem banks_apply_select (b : Mmc3) {op : Op} {v : UInt8} (h : op.select? = some v) :
    (b.apply op).banks = { b.banks with select := .ofByte v } := by
  cases op with
  | cpuWrite addr w =>
    simp only [Op.select?, Option.ite_none_right_eq_some, Option.some.injEq] at h
    obtain ⟨⟨hlow, hhigh, heven⟩, rfl⟩ := h
    rw [apply, cpuWrite_register b w hlow, ofAddr_bankSelect (lt_bankEnd hhigh) heven]
    rfl
  | ppuWrite addr w => cases h
  | clock => cases h

theorem banks_apply_data (b : Mmc3) {op : Op} {v : UInt8} (h : op.data? = some v) :
    (b.apply op).banks = b.banks.write b.prgBanks b.chrBanks v := by
  cases op with
  | cpuWrite addr w =>
    simp only [Op.data?, Option.ite_none_right_eq_some, Option.some.injEq] at h
    obtain ⟨⟨hlow, hhigh, hodd⟩, rfl⟩ := h
    have hne : addr % 2 ≠ 0 := by
      rw [hodd]
      decide
    rw [apply, cpuWrite_register b w hlow, ofAddr_bankData (lt_bankEnd hhigh) hne]
    rfl
  | ppuWrite addr w => cases h
  | clock => cases h

theorem banks_writeRegister_other (b : Mmc3) {r : Register} (v : UInt8)
    (h : r ≠ .bankSelect ∧ r ≠ .bankData) : (b.writeRegister r v).banks = b.banks := by
  cases r with
  | bankSelect => exact absurd rfl h.1
  | bankData => exact absurd rfl h.2
  | _ => rfl

theorem banks_apply_other (b : Mmc3) {op : Op} (hs : op.select? = none) (hd : op.data? = none) :
    (b.apply op).banks = b.banks := by
  cases op with
  | cpuWrite addr w =>
    by_cases hlow : addr < 0x6000
    · simp only [apply, cpuWrite, hlow, ite_true]
    by_cases hmid : addr < 0x8000
    · simp only [apply, cpuWrite, hlow, hmid, ite_true, ite_false]
      rfl
    have hrom : 0x8000 ≤ addr := UInt16.not_lt.1 hmid
    rw [apply, cpuWrite_register b w hrom]
    apply banks_writeRegister_other
    apply ofAddr_ne_bank
    -- Below `$A000` the address is even or odd, and then one of the two bytes is written.
    intro hbank
    have hle : addr ≤ 0x9FFF := by
      rw [UInt16.le_iff_toNat_le]
      exact Nat.le_of_lt_succ (UInt16.lt_iff_toNat_lt.1 hbank)
    simp only [Op.select?, Op.data?, hrom, hle, true_and, ite_eq_right_iff] at hs hd
    have htwo : addr % 2 = 0 ∨ addr % 2 = 1 := by
      simp only [← UInt16.toNat_inj, UInt16.toNat_mod]
      exact Nat.mod_two_eq_zero_or_one addr.toNat
    rcases htwo with h | h
    · exact absurd (hs h) (by simp)
    · exact absurd (hd h) (by simp)
  | ppuWrite addr w => exact banks_ppuWrite b addr w
  | clock => rfl

theorem data?_eq_none_of_select {op : Op} {v : UInt8} (h : op.select? = some v) :
    op.data? = none := by
  cases op with
  | cpuWrite addr w =>
    simp only [Op.select?, Option.ite_none_right_eq_some] at h
    simp [Op.data?, h.1.2.2]
  | ppuWrite addr w => rfl
  | clock => rfl

/-! ### The board follows its history -/

/-- The bank registers of a board over `n` and `c` banks hold what the history says. -/
structure Follows (n c : Nat) (b : Banks) (ops : List Op) : Prop where
  select : b.select = .ofByte (lastSelect ops)
  registers : ∀ i : Fin 8, b.registers[i] = held ops i
  windows : b.windows = windowsAfter n c ops

theorem windowsAfter_congr (n c : Nat) {ops other : List Op}
    (h : dataWrites ops = dataWrites other) : windowsAfter n c ops = windowsAfter n c other := by
  unfold windowsAfter held
  rw [h]

theorem windowsAfter_layout (n c : Nat) {ops : List Op} {r : Vector UInt8 8} {s v : UInt8}
    (hr : ∀ i : Fin 8, r[i] = held ops i) (hs : (dataWrites ops).getLast? = some (s, v)) :
    windowsAfter n c ops =
      { prg := prgWindows (testBits s 0x40) n r
        chr := chrWindows (testBits s 0x80) c r } := by
  have h0 : r[0] = held ops 0 := hr 0
  have h1 : r[1] = held ops 1 := hr 1
  have h2 : r[2] = held ops 2 := hr 2
  have h3 : r[3] = held ops 3 := hr 3
  have h4 : r[4] = held ops 4 := hr 4
  have h5 : r[5] = held ops 5 := hr 5
  have h6 : r[6] = held ops 6 := hr 6
  have h7 : r[7] = held ops 7 := hr 7
  simp only [windowsAfter, hs, prgWindows, chrWindows, h0, h1, h2, h3, h4, h5, h6, h7]
  congr 1

theorem follows_powerOn (prgBanks c : Nat) :
    Follows prgBanks c { windows := .powerOn prgBanks } [] where
  select := by
    show ({} : Select) = .ofByte (lastSelect [])
    decide
  registers i := by
    show (Vector.replicate 8 (0 : UInt8))[i] = 0
    simp
  windows := rfl

theorem follows_select {n c : Nat} {b : Banks} {ops : List Op} (h : Follows n c b ops) {op : Op}
    {v : UInt8} (hv : op.select? = some v) :
    Follows n c { b with select := .ofByte v } (ops ++ [op]) := by
  have hd : op.data? = none := data?_eq_none_of_select hv
  have hsame : dataWrites (ops ++ [op]) = dataWrites ops := by simp [dataWrites_snoc, hd]
  refine ⟨?_, ?_, ?_⟩
  · rw [lastSelect_snoc, hv]
    rfl
  · intro i
    rw [held_snoc, hd, Option.getD_none, ite_self]
    exact h.registers i
  · rw [windowsAfter_congr n c hsame]
    exact h.windows

theorem follows_data {n c : Nat} {b : Banks} {ops : List Op} (h : Follows n c b ops) {op : Op}
    {v : UInt8} (hs : op.select? = none) (hv : op.data? = some v) :
    Follows n c (b.write n c v) (ops ++ [op]) := by
  have hindex : b.select.index.val = (lastSelect ops).toNat % 8 := by
    rw [h.select]
    rfl
  have hregs : ∀ i : Fin 8, (b.registers.set b.select.index v)[i] = held (ops ++ [op]) i := by
    intro i
    rw [held_snoc, hv, Option.getD_some, ← hindex]
    by_cases hi : b.select.index.val = i.val
    · simp [hi]
    · simp only [hi, ite_false]
      rw [← h.registers i]
      exact Vector.getElem_set_ne _ _ hi
  have hlast : (dataWrites (ops ++ [op])).getLast? = some (lastSelect ops, v) := by
    simp [dataWrites_snoc, hv]
  refine ⟨?_, hregs, ?_⟩
  · rw [lastSelect_snoc, hs]
    exact h.select
  · have hp : b.select.prgSwapped = testBits (lastSelect ops) 0x40 := by
      rw [h.select]
      rfl
    have hc : b.select.chrSwapped = testBits (lastSelect ops) 0x80 := by
      rw [h.select]
      rfl
    rw [Banks.windows_write, windowsAfter_layout n c hregs hlast, hp, hc]

theorem follows_other {n c : Nat} {b : Banks} {ops : List Op} (h : Follows n c b ops) {op : Op}
    (hs : op.select? = none) (hd : op.data? = none) : Follows n c b (ops ++ [op]) := by
  have hsame : dataWrites (ops ++ [op]) = dataWrites ops := by simp [dataWrites_snoc, hd]
  refine ⟨?_, ?_, ?_⟩
  · rw [lastSelect_snoc, hs]
    exact h.select
  · intro i
    rw [held_snoc, hd, Option.getD_none, ite_self]
    exact h.registers i
  · rw [windowsAfter_congr n c hsame]
    exact h.windows

theorem follows_apply {b : Mmc3} {ops : List Op} (h : Follows b.prgBanks b.chrBanks b.banks ops)
    (op : Op) : Follows b.prgBanks b.chrBanks (b.apply op).banks (ops ++ [op]) := by
  cases hs : op.select? with
  | some v =>
    rw [banks_apply_select b hs]
    exact follows_select h hs
  | none =>
    cases hd : op.data? with
    | some v =>
      rw [banks_apply_data b hd]
      exact follows_data h hs hd
    | none =>
      rw [banks_apply_other b hs hd]
      exact follows_other h hs hd

theorem prgBanks_run (b : Mmc3) (ops : List Op) : (b.run ops).prgBanks = b.prgBanks := by
  unfold prgBanks
  rw [prg_run]

theorem chrBanks_run (b : Mmc3) (ops : List Op) : (b.run ops).chrBanks = b.chrBanks := by
  unfold chrBanks
  rw [chr_size_run]

theorem follows_run (prg : Array UInt8) (chr : Chr) (mirroring : Mirroring) (ops : List Op) :
    Follows (bankCount prg.size 0x2000) (bankCount chr.bytes.size 0x400)
      ((powerOn prg chr mirroring).run ops).banks ops := by
  induction ops using List.reverseRecOn with
  | nil => exact follows_powerOn _ _
  | append_singleton ops op ih =>
    have hprg : ((powerOn prg chr mirroring).run ops).prgBanks = bankCount prg.size 0x2000 :=
      prgBanks_run _ ops
    have hchr : ((powerOn prg chr mirroring).run ops).chrBanks = bankCount chr.bytes.size 0x400 :=
      chrBanks_run _ ops
    rw [← hprg, ← hchr] at ih ⊢
    rw [run_snoc]
    exact follows_apply ih op

/-! ### What the windows show -/

theorem cpuRead_window (b : Mmc3) (k : Fin 4) (o : Nat) (h : o < 0x2000) :
    b.cpuRead (UInt16.ofNat (0x8000 + k * 0x2000 + o)) =
      romByte b.prg (b.banks.windows.prg[k] * 0x2000 + o) := by
  have haddr : (UInt16.ofNat (0x8000 + k * 0x2000 + o)).toNat = 0x8000 + k * 0x2000 + o := by
    rw [UInt16.toNat_ofNat']
    omega
  have hrom : ¬ UInt16.ofNat (0x8000 + k * 0x2000 + o) < 0x6000 ∧
      ¬ UInt16.ofNat (0x8000 + k * 0x2000 + o) < 0x8000 := by
    simp only [UInt16.lt_iff_toNat_lt, haddr]
    exact ⟨Nat.not_lt.2 (by simp; omega), Nat.not_lt.2 (by simp; omega)⟩
  have hk : (0x8000 + k * 0x2000 + o) / 0x2000 % 4 = k := by omega
  have ho : (0x8000 + k * 0x2000 + o) % 0x2000 = o := by omega
  simp only [cpuRead, hrom, ite_false, prgOffset, haddr, hk, ho, Fin.getElem_fin]

theorem ppuRead_window (b : Mmc3) (k : Fin 8) (o : Nat) (h : o < 0x400) :
    b.ppuRead (UInt16.ofNat (k * 0x400 + o)) =
      b.chr.read (b.banks.windows.chr[k] * 0x400 + o) := by
  have haddr : (UInt16.ofNat (k * 0x400 + o)).toNat = k * 0x400 + o := by
    rw [UInt16.toNat_ofNat']
    omega
  have hpattern : UInt16.ofNat (k * 0x400 + o) < 0x2000 := by
    rw [UInt16.lt_iff_toNat_lt, haddr]
    simp
    omega
  have hk : (k * 0x400 + o) / 0x400 % 8 = k := by omega
  have ho : (k * 0x400 + o) % 0x400 = o := by omega
  simp only [ppuRead, hpattern, ite_true, chrOffset, haddr, hk, ho, Fin.getElem_fin]

/-- After any operations on a board fresh from power on, the bank registers hold what the history
of writes says, the windows are those it leads to, and through them program and character memory
are read. -/
theorem windows_of_history (prg : Array UInt8) (chr : Chr) (mirroring : Mirroring)
    (ops : List Op) :
    let b := (powerOn prg chr mirroring).run ops
    let w := windowsAfter (max 1 (prg.size / 0x2000)) (max 1 (chr.bytes.size / 0x400)) ops
    (∀ i : Fin 8, b.banks.registers[i] = held ops i) ∧
    b.banks.windows = w ∧
    (∀ (k : Fin 4) (o : Nat), o < 0x2000 →
      b.cpuRead (UInt16.ofNat (0x8000 + k * 0x2000 + o)) = romByte prg (w.prg[k] * 0x2000 + o)) ∧
    (∀ (k : Fin 8) (o : Nat), o < 0x400 →
      b.ppuRead (UInt16.ofNat (k * 0x400 + o)) = b.chr.read (w.chr[k] * 0x400 + o)) := by
  have hf := follows_run prg chr mirroring ops
  have hprg : ((powerOn prg chr mirroring).run ops).prg = prg := prg_run _ _
  refine ⟨hf.registers, hf.windows, ?_, ?_⟩
  · intro k o ho
    rw [cpuRead_window _ k o ho, hprg, hf.windows]
    rfl
  · intro k o ho
    rw [ppuRead_window _ k o ho, hf.windows]
    rfl

end Nes.Mmc3
