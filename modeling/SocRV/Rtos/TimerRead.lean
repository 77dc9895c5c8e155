import SocRV.Lib.Machine
import SocRV.Rtos.TickRun

/-!
# Reading the timer

`timer_read` puts a 64-bit time together from three loads, and starts over when the high half has changed in between.
Anything may happen to the peripherals between the loads; the run of the peripherals is fed with the request of each
of their cycles, the loads of the driver among them.
-/

namespace SocRV

namespace Tick

open SplitCounter

/-- The peripherals, from a given state on. -/
def peripherals (s : TickSources) : Machine TickSources (Option Payload) := ⟨s, TickSources.next⟩

/-- The timer in a cycle of the run. -/
def timerAt (s : TickSources) (w : Nat → Option Payload) (n : Nat) : MachineTimer := ((peripherals s).run w n).timer

/-- A request is a load from an address. -/
def Loads (req : Option Payload) (address : BitVec 32) : Prop := ∃ p ∈ req, p.write = false ∧ p.addr = address

/-- The addresses of `MTIME_LO` and `MTIME_HI`. -/
def mtimeLo : BitVec 32 := timerBase + 0x00

@[inherit_doc mtimeLo]
def mtimeHi : BitVec 32 := timerBase + 0x04

/-- A load of the high half of the time. -/
theorem reqRdata_mtimeHi (t : MachineTimer) : t.reqRdata mtimeHi = highOf t.mtime := by
  unfold MachineTimer.reqRdata
  dsimp only
  rw [if_neg (by decide), if_pos (by decide)]

/-- A load of the low half of the time. -/
theorem reqRdata_mtimeLo (t : MachineTimer) : t.reqRdata mtimeLo = lowOf t.mtime := by
  unfold MachineTimer.reqRdata
  dsimp only
  rw [if_pos (by decide)]

section Run

variable (s : TickSources) (w : Nat → Option Payload)

/-- What a load in a cycle reads. -/
def loaded (n : Nat) (address : BitVec 32) : BitVec 32 := (timerAt s w n).reqRdata address

/-- The three loads of one pass of `timer_read`, in the cycles `a`, `b` and `c`. -/
structure Pass (a b c : Nat) : Prop where
  loadHigh : Loads (w a) mtimeHi
  loadLow : Loads (w b) mtimeLo
  loadAgain : Loads (w c) mtimeHi
  before : a < b
  behind : b < c

/-- `timer_read` called in a run returns a value: its first load is in the cycle `first`, its last pass takes the cycles
from `last` to `done`. -/
inductive TimerRead : Nat → Nat → Nat → BitVec 64 → Prop
  | returns {a b c : Nat} : Pass w a b c → loaded s w a mtimeHi = loaded s w c mtimeHi →
      TimerRead a a c ((loaded s w c mtimeHi).setWidth 64 <<< 32 ||| (loaded s w b mtimeLo).setWidth 64)
  | again {a b c first last done : Nat} {v : BitVec 64} : Pass w a b c → loaded s w a mtimeHi ≠ loaded s w c mtimeHi →
      c < first → TimerRead first last done v → TimerRead a last done v

/-- How often `mtime` has counted before a cycle. -/
def counts : Nat → Nat
  | 0 => 0
  | n + 1 => counts n + ((timerAt s w n).timerCtrl.getLsbD 0).toNat

variable {s w}

theorem counts_mono {m n : Nat} (h : m ≤ n) : counts s w m ≤ counts s w n := by
  induction n, h using Nat.le_induction with
  | base => exact Nat.le_refl _
  | succ n hmn ih => exact Nat.le_trans ih (Nat.le_add_right _ _)

/-- While nothing is stored to it, `mtime` is ahead by what it has counted. -/
theorem mtime_run {m n : Nat} (h : m ≤ n) (hw : ∀ k, m ≤ k → k < n → ∀ p ∈ w k, setsTime p = false) :
    (timerAt s w n).mtime = (timerAt s w m).mtime + BitVec.ofNat 64 (counts s w n - counts s w m) := by
  induction n, h using Nat.le_induction with
  | base =>
    rw [Nat.sub_self]
    exact (BitVec.add_zero _).symm
  | succ n hmn ih =>
    have hle : counts s w m ≤ counts s w n := counts_mono hmn
    have hstep : (timerAt s w (n + 1)).mtime = (timerAt s w n).count :=
      mtime_next (hw n hmn (Nat.lt_succ_self n))
    have hn := ih fun k hmk hkn => hw k hmk (Nat.lt_succ_of_lt hkn)
    rw [hstep, MachineTimer.count, counts, hn]
    cases (timerAt s w n).timerCtrl.getLsbD 0 with
    | false => rfl
    | true =>
      have hsub : counts s w n + true.toNat - counts s w m = counts s w n - counts s w m + 1 := by
        rw [Bool.toNat_true]
        omega
      rw [if_pos rfl, hsub, BitVec.ofNat_add, BitVec.add_assoc]
      rfl

/-! ## The loads of the time -/

/-- A load of the upper address returns the high half of `mtime`. -/
theorem loaded_mtimeHi (n : Nat) : loaded s w n mtimeHi = highOf (timerAt s w n).mtime := reqRdata_mtimeHi _

/-- A load of the lower address returns the low half of `mtime`. -/
theorem loaded_mtimeLo (n : Nat) : loaded s w n mtimeLo = lowOf (timerAt s w n).mtime := reqRdata_mtimeLo _

/-- The word that two halves are shifted and or-ed to. -/
theorem toNat_join (high low : BitVec 32) :
    (high.setWidth 64 <<< 32 ||| low.setWidth 64).toNat = high.toNat * 2 ^ 32 + low.toNat := by
  have hlow := low.isLt
  have hhigh := high.isLt
  rw [BitVec.toNat_or, BitVec.toNat_shiftLeft, BitVec.toNat_setWidth, BitVec.toNat_setWidth,
    Nat.mod_eq_of_lt (show high.toNat < 2 ^ 64 by omega), Nat.mod_eq_of_lt (show low.toNat < 2 ^ 64 by omega),
    Nat.shiftLeft_eq, Nat.mod_eq_of_lt (show high.toNat * 2 ^ 32 < 2 ^ 64 by omega), Nat.mul_comm,
    Nat.two_pow_add_eq_or_of_lt hlow]

/-- A pass in which `mtime` is not stored to and does not come round reads the time of its load of the low half. -/
theorem Pass.value {a b c : Nat} (h : Pass w a b c) (hsame : loaded s w a mtimeHi = loaded s w c mtimeHi)
    (hw : ∀ k, a ≤ k → k < c → ∀ p ∈ w k, setsTime p = false) (hcount : counts s w c - counts s w a ≤ 2 ^ 64 - 2 ^ 32) :
    (loaded s w c mtimeHi).setWidth 64 <<< 32 ||| (loaded s w b mtimeLo).setWidth 64 = (timerAt s w b).mtime := by
  have hab : counts s w a ≤ counts s w b := counts_mono (Nat.le_of_lt h.before)
  have hbc : counts s w b ≤ counts s w c := counts_mono (Nat.le_of_lt h.behind)
  have hb := congrArg BitVec.toNat (mtime_run (s := s) (Nat.le_of_lt h.before)
    fun k hak hkb => hw k hak (Nat.lt_trans hkb h.behind))
  have hc := congrArg BitVec.toNat (mtime_run (s := s) (Nat.le_of_lt (Nat.lt_trans h.before h.behind)) hw)
  rw [loaded_mtimeHi, loaded_mtimeHi] at hsame
  have hhigh := congrArg BitVec.toNat hsame
  rw [toNat_highOf, toNat_highOf] at hhigh
  apply BitVec.eq_of_toNat_eq
  rw [toNat_join, loaded_mtimeHi, loaded_mtimeLo, toNat_highOf, toNat_lowOf]
  rw [BitVec.toNat_add, BitVec.toNat_ofNat] at hb hc
  have hlt := (timerAt s w a).mtime.isLt
  omega

end Run

/-! ## Setting the compare value -/

/-- The stores of `timer_set_compare` are performed in the cycles `a`, `b` and `c`, and no other store to the compare
value between them. -/
structure SetsCompare (w : Nat → Option Payload) (deadline : BitVec 64) (a b c : Nat) : Prop where
  stores : [w a, w b, w c] = (timerSetCompare deadline).map some
  before : a < b
  behind : b < c
  others : ∀ n, a < n → n < c → n ≠ b → ∀ p ∈ w n, setsCompare p = false

section Run

variable {s : TickSources} {w : Nat → Option Payload}

/-- The compare value stays as long as nothing is stored to it. -/
theorem mtimecmp_run {m n : Nat} (h : m ≤ n) (hw : ∀ k, m ≤ k → k < n → ∀ p ∈ w k, setsCompare p = false) :
    (timerAt s w n).mtimecmp = (timerAt s w m).mtimecmp := by
  induction n, h using Nat.le_induction with
  | base => rfl
  | succ n hmn ih =>
    exact (mtimecmp_next (hw n hmn (Nat.lt_succ_self n))).trans (ih fun k hmk hkn => hw k hmk (Nat.lt_succ_of_lt hkn))

/-- The compare value behind a store of its high or low half. -/
theorem mtimecmp_store {n : Nat} {p : Payload} (hp : w n = some p) :
    (timerAt s w (n + 1)).mtimecmp = ((regsOf ((peripherals s).run w n)).store p).mtimecmp := by
  have hnext : (peripherals s).run w (n + 1) = ((peripherals s).run w n).next (some p) := by
    rw [Machine.run_succ, hp]
    rfl
  unfold timerAt
  rw [hnext, ← regsOf_next]
  rfl

/-- Between the first store and the last, the high half of the compare value is all ones. -/
theorem SetsCompare.highOf_between {deadline : BitVec 64} {a b c n : Nat} (h : SetsCompare w deadline a b c)
    (han : a < n) (hnc : n ≤ c) : highOf (timerAt s w n).mtimecmp = 0xffffffff := by
  have hstores := h.stores
  unfold timerSetCompare at hstores
  simp only [List.map_cons, List.map_nil, List.cons.injEq, and_true] at hstores
  obtain ⟨ha, hb, -⟩ := hstores
  have hab := h.before
  have hbc := h.behind
  have hfirst : ∀ k, a < k → k ≤ b → highOf (timerAt s w k).mtimecmp = 0xffffffff := by
    intro k hak hkb
    rw [mtimecmp_run (s := s) (w := w) (m := a + 1) hak
      fun j haj hjk => h.others j haj (by omega) (by omega), mtimecmp_store ha, store_compareHigh]
    exact highOf_append _ _
  by_cases hnb : n ≤ b
  · exact hfirst n han hnb
  · rw [mtimecmp_run (s := s) (w := w) (m := b + 1) (by omega)
      fun j hbj hjn => h.others j (by omega) (by omega) (by omega), mtimecmp_store hb, store_compareLow]
    exact (highOf_append _ _).trans (hfirst b hab (Nat.le_refl b))

/-- Behind the last store the compare value is the deadline. -/
theorem SetsCompare.mtimecmp_after {deadline : BitVec 64} {a b c n : Nat} (h : SetsCompare w deadline a b c)
    (hcn : c < n) (hw : ∀ k, c < k → k < n → ∀ p ∈ w k, setsCompare p = false) :
    (timerAt s w n).mtimecmp = deadline := by
  have hstores := h.stores
  unfold timerSetCompare at hstores
  simp only [List.map_cons, List.map_nil, List.cons.injEq, and_true] at hstores
  obtain ⟨-, hb, hc⟩ := hstores
  have hbc := h.behind
  have hlow : lowOf (timerAt s w c).mtimecmp = lowOf deadline := by
    rw [mtimecmp_run (s := s) (w := w) (m := b + 1) hbc
      fun j hbj hjc => h.others j (by have := h.before; omega) hjc (by omega), mtimecmp_store hb, store_compareLow]
    exact lowOf_append _ _
  rw [mtimecmp_run (s := s) (w := w) (m := c + 1) hcn hw, mtimecmp_store hc, store_compareHigh]
  have hregs : (regsOf ((peripherals s).run w c)).mtimecmp = (timerAt s w c).mtimecmp := rfl
  dsimp only
  rw [hregs, hlow]
  exact append_halves deadline

/-- No interrupt is requested below a compare value whose high half is all ones. -/
theorem timerIrq_below {t : MachineTimer} (hcmp : highOf t.mtimecmp = 0xffffffff)
    (htime : t.mtime < 0xffffffff00000000) : t.timerIrq = false := by
  have hhigh := congrArg BitVec.toNat hcmp
  rw [toNat_highOf] at hhigh
  unfold MachineTimer.timerIrq
  rw [decide_eq_false, Bool.and_false]
  intro hle
  rw [BitVec.le_def] at hle
  rw [BitVec.lt_def] at htime
  change t.mtimecmp.toNat / 2 ^ 32 = 4294967295 at hhigh
  change t.mtime.toNat < 18446744069414584320 at htime
  omega

end Run

end Tick

end SocRV
