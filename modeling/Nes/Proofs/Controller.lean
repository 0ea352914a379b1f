import Nes.Controller
import Nes.Proofs.Byte
import Nes.Proofs.History

/-!
# What a controller answers

What was done to a controller tells what it answers.  While the strobe is high that is the first
button as it is; once the strobe has fallen, the reads since then count through the buttons as they
were at the fall, and after the last of them through ones.  Buttons pressed after the fall, and
writes that leave the strobe low, make no difference.
-/

namespace Nes

namespace Button

/-- The buttons in the order in which they are handed out. -/
def order : List Button := [a, b, select, start, up, down, left, right]

/-- The place of a button in the order of `Button`. -/
def number : Button → Nat
  | a => 0
  | b => 1
  | select => 2
  | start => 3
  | up => 4
  | down => 5
  | left => 6
  | right => 7

theorem number_of_order {k : Nat} {button : Button} (h : order[k]? = some button) :
    button.number = k := by
  have hplaces : ∀ k : Fin order.length, order[k].number = k := by decide
  obtain ⟨hk, rfl⟩ := List.getElem?_eq_some_iff.1 h
  exact hplaces ⟨k, hk⟩

theorem testBits_mask (byte : UInt8) (button : Button) :
    testBits byte button.mask = byte.toNat.testBit button.number := by
  revert byte
  apply forall_byte
  cases button <;> decide +kernel

theorem testBit_press (byte : UInt8) (other button : Button) :
    (byte ||| other.mask).toNat.testBit button.number =
        (byte.toNat.testBit button.number || decide (other = button)) ∧
      (byte &&& ~~~other.mask).toNat.testBit button.number =
        (byte.toNat.testBit button.number && !decide (other = button)) := by
  have hmask : other.mask.toNat.testBit button.number = decide (other = button) := by
    cases other <;> cases button <;> decide
  have hrest : (~~~other.mask).toNat.testBit button.number = !decide (other = button) := by
    cases other <;> cases button <;> decide
  rw [UInt8.toNat_or, Nat.testBit_or, hmask, UInt8.toNat_and, Nat.testBit_and, hrest]
  exact ⟨rfl, rfl⟩

end Button

namespace Controller

/-- What can happen to a controller. -/
inductive Op
  | setButton (button : Button) (pressed : Bool)
  | setButtons (buttons : UInt8)
  | write (v : UInt8)
  | read
deriving DecidableEq, Repr

namespace Op

/-- Whether the button is held from now on, if the operation says so. -/
def holds? (button : Button) : Op → Option Bool
  | setButton other pressed => if other = button then some pressed else none
  | setButtons buttons => some (testBits buttons button.mask)
  | _ => none

/-- Whether the strobe is high from now on, if the operation says so. -/
def strobe? : Op → Option Bool
  | write v => some (testBits v 1)
  | _ => none

def onButtons (buttons : UInt8) : Op → UInt8
  | setButton button pressed =>
    if pressed then buttons ||| button.mask else buttons &&& ~~~button.mask
  | setButtons buttons => buttons
  | _ => buttons

end Op

def apply (c : Controller) : Op → Controller
  | .setButton button pressed => c.setButton button pressed
  | .setButtons buttons => c.setButtons buttons
  | .write v => c.write v
  | .read => c.read.2

def run (c : Controller) (ops : List Op) : Controller := ops.foldl apply c

theorem run_append (c : Controller) (before after : List Op) :
    c.run (before ++ after) = (c.run before).run after := by
  simp only [run, List.foldl_append]

theorem run_snoc (c : Controller) (ops : List Op) (op : Op) :
    c.run (ops ++ [op]) = (c.run ops).apply op := by
  rw [run_append]
  rfl

/-! ### What the history tells -/

def held (button : Button) (ops : List Op) : Bool := History.latest (Op.holds? button) false ops

def strobed (ops : List Op) : Bool := History.latest Op.strobe? false ops

/-- The answer after `reads` reads of a register that took its bits after `before`. -/
def bitAfter (before : List Op) (reads : Nat) : UInt8 :=
  match Button.order[reads]? with
  | some button => bitIf (held button before) 1
  | none => 1

/-- The answer to a read that follows `ops`. -/
inductive Answers (ops : List Op) : UInt8 → Prop
  | live (high : strobed ops = true) : Answers ops (bitIf (held .a ops) 1)
  | shifted {before after : List Op} {v : UInt8} (split : ops = before ++ .write v :: after)
    (high : strobed before = true) (falls : testBits v 1 = false)
    (low : ∀ op ∈ after, op.strobe? ≠ some true) :
    Answers ops (bitAfter before (after.count .read))
  | unread (low : ∀ op ∈ ops, op.strobe? ≠ some true) : Answers ops 1

/-! ### Buttons and strobe -/

theorem Op.testBit_onButtons (op : Op) (buttons : UInt8) (button : Button) :
    (op.onButtons buttons).toNat.testBit button.number =
      (op.holds? button).getD (buttons.toNat.testBit button.number) := by
  cases op with
  | setButton other pressed =>
    obtain ⟨hset, hclear⟩ := Button.testBit_press buttons other button
    cases pressed with
    | true =>
      show (buttons ||| other.mask).toNat.testBit button.number = _
      rw [hset, holds?]
      by_cases hsame : other = button <;> simp [hsame]
    | false =>
      show (buttons &&& ~~~other.mask).toNat.testBit button.number = _
      rw [hclear, holds?]
      by_cases hsame : other = button <;> simp [hsame]
  | setButtons buttons => exact (button.testBits_mask buttons).symm
  | _ => rfl

theorem setButtons_eq (c : Controller) (buttons : UInt8) : ∃ shift remaining,
    c.setButtons buttons = { c with buttons, shift, remaining } := by
  unfold setButtons
  dsimp only
  split
  · exact ⟨_, _, rfl⟩
  · exact ⟨_, _, rfl⟩

theorem read_eq (c : Controller) : ∃ shift remaining, c.read.2 = { c with shift, remaining } := by
  unfold read
  repeat' split
  all_goals exact ⟨_, _, rfl⟩

theorem apply_eq (c : Controller) (op : Op) : ∃ shift remaining, c.apply op =
    { buttons := op.onButtons c.buttons
      strobe := op.strobe?.getD c.strobe
      shift, remaining } := by
  cases op with
  | setButton button pressed => exact c.setButtons_eq _
  | setButtons buttons => exact c.setButtons_eq buttons
  | write v =>
    show ∃ shift remaining, c.write v = _
    unfold write
    dsimp only
    split
    · exact ⟨_, _, rfl⟩
    · exact ⟨_, _, rfl⟩
  | read => exact c.read_eq

theorem strobe_apply (c : Controller) (op : Op) :
    (c.apply op).strobe = op.strobe?.getD c.strobe := by
  obtain ⟨_, _, heq⟩ := c.apply_eq op
  rw [heq]

theorem strobe_run (ops : List Op) : (run {} ops).strobe = strobed ops := by
  induction ops using List.reverseRecOn with
  | nil => rfl
  | append_singleton ops op ih =>
    rw [run_snoc, strobe_apply, ih]
    exact (History.latest_snoc _ _ _ _).symm

theorem testBit_buttons_run (ops : List Op) (button : Button) :
    (run {} ops).buttons.toNat.testBit button.number = held button ops := by
  induction ops using List.reverseRecOn with
  | nil => exact Nat.zero_testBit _
  | append_singleton ops op ih =>
    obtain ⟨_, _, heq⟩ := (run {} ops).apply_eq op
    rw [run_snoc, heq]
    dsimp only
    rw [Op.testBit_onButtons, ih]
    exact (History.latest_snoc _ _ _ _).symm

/-! ### The shift register -/

/-- While the strobe is high the register holds the buttons as they are. -/
def Latched (c : Controller) : Prop := c.strobe = true → c.shift = c.buttons ∧ c.remaining = 8

theorem read_of_strobe (c : Controller) (h : c.strobe = true) : c.read.2 = c := by
  simp [read, h]

theorem latched_apply (c : Controller) (op : Op) (h : c.Latched) : (c.apply op).Latched := by
  have hset : ∀ buttons, (c.setButtons buttons).Latched := by
    intro buttons
    unfold setButtons
    dsimp only
    split
    case isTrue => exact fun _ => ⟨rfl, rfl⟩
    case isFalse hlow => exact fun hhigh => absurd hhigh hlow
  cases op with
  | setButton button pressed => exact hset _
  | setButtons buttons => exact hset buttons
  | write v =>
    show (c.write v).Latched
    unfold write
    dsimp only
    split
    case isTrue => exact fun _ => ⟨rfl, rfl⟩
    case isFalse hlow => exact fun hhigh => absurd hhigh hlow
  | read =>
    intro hhigh
    have hstrobe : c.strobe = true := (strobe_apply c .read).symm.trans hhigh
    rw [apply, c.read_of_strobe hstrobe]
    exact h hstrobe

theorem latched_run (ops : List Op) : (run {} ops).Latched := by
  induction ops using List.reverseRecOn with
  | nil => exact fun hhigh => absurd hhigh Bool.false_ne_true
  | append_singleton ops op ih =>
    rw [run_snoc]
    exact latched_apply _ op ih

/-- What the register hands out after `k` more reads. -/
def ahead (c : Controller) (k : Nat) : UInt8 :=
  if k < c.remaining then bitIf (c.shift.toNat.testBit k) 1 else 1

theorem read_of_low (c : Controller) (h : c.strobe = false) :
    c.read.1 = c.ahead 0 ∧ ∀ k, c.read.2.ahead k = c.ahead (k + 1) := by
  unfold read ahead
  rw [h, if_neg Bool.false_ne_true]
  split
  case isTrue hdry =>
    rw [hdry]
    exact ⟨rfl, fun k => rfl⟩
  case isFalse hleft =>
    have hbit : ∀ k, (c.shift >>> 1).toNat.testBit k = c.shift.toNat.testBit (k + 1) := by
      intro k
      rw [UInt8.toNat_shiftRight, Nat.testBit_shiftRight, Nat.add_comm]
      rfl
    refine ⟨?_, fun k => ?_⟩
    · rw [if_pos (Nat.pos_of_ne_zero hleft)]
      exact and_one_eq c.shift
    · dsimp only
      rw [hbit]
      exact if_congr (by omega) rfl rfl

/-- A low strobe leaves the register alone, but for reads. -/
theorem ahead_apply (c : Controller) {op : Op} (h : c.strobe = false)
    (hlow : op.strobe? ≠ some true) (k : Nat) :
    (c.apply op).ahead k = c.ahead (k + [op].count .read) := by
  have hset : ∀ buttons, c.setButtons buttons = { c with buttons } := by
    intro buttons
    unfold setButtons
    dsimp only
    rw [h, if_neg Bool.false_ne_true]
  cases op with
  | setButton button pressed =>
    rw [apply, setButton, hset]
    rfl
  | setButtons buttons =>
    rw [apply, hset]
    rfl
  | write v =>
    have hv : testBits v 1 = false := by simpa [Op.strobe?] using hlow
    rw [apply, write, hv]
    rfl
  | read => exact (c.read_of_low h).2 k

theorem ahead_run (c : Controller) {ops : List Op} (h : c.strobe = false)
    (hlow : ∀ op ∈ ops, op.strobe? ≠ some true) (k : Nat) :
    (c.run ops).strobe = false ∧ (c.run ops).ahead k = c.ahead (k + ops.count .read) := by
  induction ops generalizing c with
  | nil => exact ⟨h, rfl⟩
  | cons op ops ih =>
    obtain ⟨hop, hops⟩ := List.forall_mem_cons.1 hlow
    have hstays : (c.apply op).strobe = false := by
      rw [strobe_apply, h]
      cases hstrobe : op.strobe? with
      | none => rfl
      | some high => simpa [hstrobe] using hop
    obtain ⟨hend, hahead⟩ := ih (c.apply op) hstays hops
    refine ⟨hend, ?_⟩
    show ((c.apply op).run ops).ahead k = _
    rw [hahead, ahead_apply c h hop, Nat.add_assoc, ← List.count_append, List.count_append,
      Nat.add_comm (ops.count _), ← List.count_append]
    rfl

/-! ### Answers -/

theorem read_of_strobed {ops : List Op} (h : strobed ops = true) :
    (run {} ops).read.1 = bitIf (held .a ops) 1 := by
  have hbit := testBit_buttons_run ops .a
  unfold read
  rw [strobe_run, if_pos h]
  dsimp only
  rw [and_one_eq]
  exact congrArg (bitIf · 1) hbit

theorem ahead_latched {ops : List Op} (h : strobed ops = true) (k : Nat) :
    (run {} ops).ahead k = bitAfter ops k := by
  have hlatched := latched_run ops
  rw [Latched, strobe_run] at hlatched
  obtain ⟨hshift, hremaining⟩ := hlatched h
  unfold ahead bitAfter
  rw [hshift, hremaining]
  cases hbutton : Button.order[k]? with
  | some button =>
    have hk : k < 8 := (List.getElem?_eq_some_iff.1 hbutton).1
    rw [if_pos hk, ← Button.number_of_order hbutton, testBit_buttons_run]
  | none =>
    have hk : 8 ≤ k := List.getElem?_eq_none_iff.1 hbutton
    rw [if_neg (Nat.not_lt.2 hk)]

theorem read_of_shifted {before after : List Op} {v : UInt8} (high : strobed before = true)
    (falls : testBits v 1 = false) (low : ∀ op ∈ after, op.strobe? ≠ some true) :
    (run {} (before ++ .write v :: after)).read.1 = bitAfter before (after.count .read) := by
  have hfall : (run {} before).write v = { run {} before with strobe := false } := by
    rw [write, falls]
    rfl
  have hrun : run {} (before ++ .write v :: after) = ((run {} before).write v).run after :=
    run_append _ before (.write v :: after)
  rw [hrun, hfall]
  obtain ⟨hlow, hahead⟩ := ahead_run { run {} before with strobe := false } rfl low 0
  rw [(read_of_low _ hlow).1, hahead, Nat.zero_add]
  exact ahead_latched high _

theorem read_of_unread {ops : List Op} (low : ∀ op ∈ ops, op.strobe? ≠ some true) :
    (run {} ops).read.1 = 1 := by
  obtain ⟨hlow, hahead⟩ := ahead_run {} rfl low 0
  rw [(read_of_low _ hlow).1, hahead]
  rfl

/-- A strobe that is low has fallen, or was never high. -/
theorem low_cases {ops : List Op} (h : strobed ops = false) :
    (∀ op ∈ ops, op.strobe? ≠ some true) ∨
      ∃ before v after, ops = before ++ .write v :: after ∧ strobed before = true ∧
        testBits v 1 = false ∧ ∀ op ∈ after, op.strobe? ≠ some true := by
  induction ops using List.reverseRecOn with
  | nil => exact .inl fun op hop => absurd hop List.not_mem_nil
  | append_singleton ops op ih =>
    have hlast : op.strobe?.getD (strobed ops) = false :=
      (History.latest_snoc Op.strobe? false ops op).symm.trans h
    have hop : op.strobe? ≠ some true := by
      intro hhigh
      rw [hhigh] at hlast
      cases hlast
    cases hbefore : strobed ops with
    | true =>
      -- the strobe was high until the last operation, which is therefore the fall
      rw [hbefore] at hlast
      cases op with
      | write v =>
        exact .inr ⟨ops, v, [], rfl, hbefore, hlast, fun _ h => absurd h List.not_mem_nil⟩
      | _ => cases hlast
    | false =>
      have hmore : ∀ {since : List Op}, (∀ op ∈ since, op.strobe? ≠ some true) →
          ∀ other ∈ since ++ [op], other.strobe? ≠ some true := by
        intro since hsince other hother
        rcases List.mem_append.1 hother with hother | hother
        · exact hsince other hother
        · rw [List.mem_singleton.1 hother]
          exact hop
      rcases ih hbefore with hnever | ⟨before, v, after, rfl, hhigh, hfalls, hafter⟩
      · exact .inl (hmore hnever)
      · exact .inr ⟨before, v, after ++ [op], by simp, hhigh, hfalls, hmore hafter⟩

theorem exists_answer (ops : List Op) : ∃ b, Answers ops b := by
  cases h : strobed ops with
  | true => exact ⟨_, .live h⟩
  | false =>
    rcases low_cases h with hnever | ⟨before, v, after, hsplit, hhigh, hfalls, hlow⟩
    · exact ⟨_, .unread hnever⟩
    · exact ⟨_, .shifted hsplit hhigh hfalls hlow⟩

theorem read_of_answers {ops : List Op} {b : UInt8} (h : Answers ops b) :
    (run {} ops).read.1 = b := by
  cases h with
  | live high => exact read_of_strobed high
  | shifted split high falls low =>
    rw [split]
    exact read_of_shifted high falls low
  | unread low => exact read_of_unread low

/-- A fresh controller's history tells what it answers. -/
theorem read_eq_iff (ops : List Op) (b : UInt8) : (run {} ops).read.1 = b ↔ Answers ops b := by
  constructor
  · rintro rfl
    obtain ⟨b, hb⟩ := exists_answer ops
    rw [read_of_answers hb]
    exact hb
  · exact read_of_answers

/-! ### Rows of answers -/

def answer? (c : Controller) : Op → Option UInt8
  | .read => some c.read.1
  | _ => none

/-- The answers to the reads of a run, in order. -/
def answers (c : Controller) : List Op → List UInt8
  | [] => []
  | op :: ops => (c.answer? op).toList ++ (c.apply op).answers ops

end Controller

end Nes
