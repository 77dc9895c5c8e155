import SocRV.Core.Primitives
import SocRV.Lib.Machine
import SocRV.Lib.SplitCounter
import SocRV.Rtos.TimerRead

/-!
# The 64-bit counters

`mcycle` and `minstret` of `dec_tlu_ctl` and `mtime` of `machine_timer`.  The two of the core keep the carry out of the
low half in a flip-flop for a cycle, and the high half is read with it; the timer adds 64 bits and overwrites the half
that is stored to.
-/

namespace SocRV

namespace Counters

/-- The write of a control register in the writeback stage: `dec_csr_wen_wb_mod`, `dec_csr_wraddr_wb` and
`dec_csr_wrdata_wb`. -/
structure CsrWb where
  wen : Bool := false
  wraddr : BitVec 12 := 0
  wrdata : BitVec 32 := 0
  deriving DecidableEq, Repr

/-- The write to a counter whose halves have these addresses. -/
def CsrWb.toHalf (c : CsrWb) (lowAddr highAddr : BitVec 12) : Option SplitCounter.Write :=
  if c.wen && c.wraddr == lowAddr then some (.low c.wrdata)
  else if c.wen && c.wraddr == highAddr then some (.high c.wrdata)
  else none

/-- The sum of a low half and what it counts, and the carry out of it. -/
def lowSum (low : BitVec 32) (events : Nat) : BitVec 33 := low.setWidth 33 + BitVec.ofNat 33 events

/-! ## `mcycle` -/

/-- `MCYCLEL` and `MCYCLEH`. -/
def mcycleLAddr : BitVec 12 := 0xb00

@[inherit_doc mcycleLAddr]
def mcycleHAddr : BitVec 12 := 0xb80

/-- `mcyclel`, `mcycleh` and `mcyclel_cout_f`. -/
structure Mcycle where
  mcyclel : BitVec 32 := 0
  mcycleh : BitVec 32 := 0
  mcyclelCoutF : Bool := false
  deriving DecidableEq, Repr

/-- What `mcycle` reads in a cycle; `stopc` is the bit `DCSR_STOPC` of `dcsr`. -/
structure McycleIn where
  ebreakToDebugModeWb : Bool := false
  dbgHalted : Bool := false
  pmuFwHalted : Bool := false
  stopc : Bool := false
  csr : CsrWb := {}
  deriving DecidableEq, Repr

/-- `mcyclel_cout_in`. -/
def McycleIn.coutIn (i : McycleIn) : Bool :=
  !(i.ebreakToDebugModeWb && i.stopc || i.dbgHalted && i.stopc || i.pmuFwHalted)

namespace Mcycle

/-- `mcycleh_inc`. -/
def mcyclehInc (s : Mcycle) : BitVec 32 := s.mcycleh + BitVec.ofNat 32 s.mcyclelCoutF.toNat

/-- The registers after a cycle. -/
def next (s : Mcycle) (i : McycleIn) : Mcycle :=
  let wrMcyclelWb := i.csr.wen && i.csr.wraddr == mcycleLAddr
  let wrMcyclehWb := i.csr.wen && i.csr.wraddr == mcycleHAddr
  let sum := lowSum s.mcyclel i.coutIn.toNat
  let mcyclelCout := sum.getLsbD 32
  let mcyclelNs := if wrMcyclelWb then i.csr.wrdata else sum.extractLsb' 0 32
  let mcyclehNs := if wrMcyclehWb then i.csr.wrdata else s.mcyclehInc
  { mcyclel := rvdffs (wrMcyclelWb || i.coutIn) mcyclelNs s.mcyclel
    mcycleh := rvdffs (wrMcyclehWb || s.mcyclelCoutF) mcyclehNs s.mcycleh
    mcyclelCoutF := mcyclelCout && !wrMcyclehWb }

/-- The counter as instructions read it. -/
def read (s : Mcycle) : BitVec 64 := s.mcyclehInc ++ s.mcyclel

/-- The counter. -/
def machine : Machine Mcycle McycleIn := ⟨{}, next⟩

end Mcycle

/-! ## `minstret` -/

/-- `MINSTRETL` and `MINSTRETH`. -/
def minstretLAddr : BitVec 12 := 0xb02

@[inherit_doc minstretLAddr]
def minstretHAddr : BitVec 12 := 0xb82

/-- `minstretl`, `minstreth`, `minstret_enable_f` and `minstretl_cout_f`. -/
structure Minstret where
  minstretl : BitVec 32 := 0
  minstreth : BitVec 32 := 0
  minstretEnableF : Bool := false
  minstretlCoutF : Bool := false
  deriving DecidableEq, Repr

/-- What `minstret` reads in a cycle. -/
structure MinstretIn where
  i0ValidWb : Bool := false
  i1ValidWb : Bool := false
  ebreakWb : Bool := false
  ecallWb : Bool := false
  ebreakToDebugModeWb : Bool := false
  csr : CsrWb := {}
  deriving DecidableEq, Repr

/-- `i0_valid_no_ebreak_ecall_wb`. -/
def MinstretIn.i0ValidNoEbreakEcallWb (i : MinstretIn) : Bool :=
  i.i0ValidWb && !(i.ebreakWb || i.ecallWb || i.ebreakToDebugModeWb)

/-- The instructions counted in a cycle. -/
def MinstretIn.retired (i : MinstretIn) : Nat := i.i0ValidNoEbreakEcallWb.toNat + i.i1ValidWb.toNat

namespace Minstret

/-- `minstreth_inc`. -/
def minstrethInc (s : Minstret) : BitVec 32 := s.minstreth + BitVec.ofNat 32 s.minstretlCoutF.toNat

/-- The registers after a cycle. -/
def next (s : Minstret) (i : MinstretIn) : Minstret :=
  let wrMinstretlWb := i.csr.wen && i.csr.wraddr == minstretLAddr
  let wrMinstrethWb := i.csr.wen && i.csr.wraddr == minstretHAddr
  let sum := lowSum s.minstretl i.retired
  let minstretlCout := sum.getLsbD 32
  let minstretEnable := i.i0ValidNoEbreakEcallWb || i.i1ValidWb
  let minstretlNs := if wrMinstretlWb then i.csr.wrdata else sum.extractLsb' 0 32
  let minstrethNs := if wrMinstrethWb then i.csr.wrdata else s.minstrethInc
  { minstretl := rvdffs (minstretEnable || wrMinstretlWb) minstretlNs s.minstretl
    minstreth := rvdffs (s.minstretEnableF || wrMinstrethWb) minstrethNs s.minstreth
    minstretEnableF := minstretEnable
    minstretlCoutF := minstretlCout && !wrMinstrethWb }

/-- The counter as instructions read it: `minstreth_read` and `minstretl_read`. -/
def read (s : Minstret) : BitVec 64 := s.minstrethInc ++ s.minstretl

/-- The counter. -/
def machine : Machine Minstret MinstretIn := ⟨{}, next⟩

end Minstret

/-! ## The low half -/

/-- The carry out of the low half says that it wraps. -/
theorem lowSum_cout (low : BitVec 32) {events : Nat} (h : events < 2 ^ 32) :
    (lowSum low events).getLsbD 32 = decide (2 ^ 32 ≤ low.toNat + events) := by
  have hlow := low.isLt
  have hsum : (lowSum low events).toNat = low.toNat + events := by
    unfold lowSum
    rw [BitVec.toNat_add, BitVec.toNat_setWidth, BitVec.toNat_ofNat]
    omega
  rw [BitVec.getLsbD, hsum, Nat.testBit_eq_decide_div_mod_eq, decide_eq_decide]
  omega

/-- The low half is counted modulo its size. -/
theorem lowSum_inc (low : BitVec 32) (events : Nat) :
    (lowSum low events).extractLsb' 0 32 = low + BitVec.ofNat 32 events := by
  unfold lowSum
  apply BitVec.eq_of_toNat_eq
  rw [BitVec.extractLsb'_toNat, Nat.shiftRight_zero, BitVec.toNat_add, BitVec.toNat_add, BitVec.toNat_setWidth,
    BitVec.toNat_ofNat, BitVec.toNat_ofNat]
  have hlow := low.isLt
  omega

/-! ## What a cycle does to the counters -/

/-- What a counter with a carry in a flip-flop reads after a cycle. -/
theorem ripple_of_halves {low high inc : BitVec 32} {events : Nat} {c : CsrWb} {lowAddr highAddr : BitVec 12}
    (hne : lowAddr ≠ highAddr) (h : events < 2 ^ 32) (hhigh : high = inc) :
    (if c.wen && c.wraddr == highAddr then c.wrdata else inc) +
          BitVec.ofNat 32 ((lowSum low events).getLsbD 32 && !(c.wen && c.wraddr == highAddr)).toNat ++
        (if c.wen && c.wraddr == lowAddr then c.wrdata else (lowSum low events).extractLsb' 0 32) =
      SplitCounter.ripple events (c.toHalf lowAddr highAddr) (high ++ low) := by
  subst hhigh
  have hlow : SplitCounter.lowOf (high ++ low + BitVec.ofNat 64 events) = low + BitVec.ofNat 32 events := by
    rw [SplitCounter.lowOf_add, SplitCounter.lowOf_append]
  have hcarry : SplitCounter.highOf (high ++ low + BitVec.ofNat 64 events) =
      high + BitVec.ofNat 32 ((lowSum low events).getLsbD 32).toNat := by
    rw [SplitCounter.highOf_add _ h, SplitCounter.lowOf_append, SplitCounter.highOf_append, lowSum_cout low h]
    by_cases hc : 2 ^ 32 ≤ low.toNat + events
    · rw [if_pos hc, decide_eq_true hc]
      rfl
    · rw [if_neg hc, decide_eq_false hc]
      exact (BitVec.add_zero high).symm
  unfold CsrWb.toHalf
  rw [lowSum_inc]
  by_cases hl : (c.wen && c.wraddr == lowAddr) = true
  · have hh : (c.wen && c.wraddr == highAddr) = false := by
      rw [Bool.and_eq_true, beq_iff_eq] at hl
      rw [hl.1, hl.2, Bool.true_and, beq_eq_false_iff_ne]
      exact hne
    rw [if_pos hl, if_pos hl, hh, if_neg Bool.false_ne_true, Bool.not_false, Bool.and_true, SplitCounter.ripple, hcarry]
  · rw [if_neg hl, if_neg hl]
    by_cases hh : (c.wen && c.wraddr == highAddr) = true
    · rw [if_pos hh, if_pos hh, hh, Bool.not_true, Bool.and_false, SplitCounter.ripple, hlow]
      exact congrArg (· ++ _) (BitVec.add_zero _)
    · rw [Bool.not_eq_true] at hh
      rw [hh, if_neg Bool.false_ne_true, if_neg Bool.false_ne_true, Bool.not_false, Bool.and_true, SplitCounter.ripple,
        ← SplitCounter.append_halves (high ++ low + BitVec.ofNat 64 events), hlow, hcarry]

/-- A flip-flop that is enabled whenever its input differs holds its input. -/
theorem rvdffs_of_or {α : Type} {w en : Bool} {v inc d : α} (h : en = false → inc = d) :
    rvdffs (w || en) (if w then v else inc) d = if w then v else inc := by
  cases w with
  | true => rfl
  | false =>
    cases en with
    | true => rfl
    | false => exact (h rfl).symm

/-- A cycle counts `mcycle`, and a write to a half replaces that half. -/
theorem Mcycle.read_next (s : Mcycle) (i : McycleIn) :
    (s.next i).read = SplitCounter.ripple i.coutIn.toNat (i.csr.toHalf mcycleLAddr mcycleHAddr) s.read := by
  have hlow : i.coutIn = false → (lowSum s.mcyclel i.coutIn.toNat).extractLsb' 0 32 = s.mcyclel := by
    intro h
    rw [h, lowSum_inc]
    exact BitVec.add_zero _
  have hhigh : s.mcyclelCoutF = false → s.mcyclehInc = s.mcycleh := by
    intro h
    unfold mcyclehInc
    rw [h]
    exact BitVec.add_zero _
  unfold read
  conv_lhs => unfold mcyclehInc next
  dsimp only
  rw [rvdffs_of_or hlow, rvdffs_of_or hhigh]
  refine ripple_of_halves (by decide) ?_ rfl
  cases i.coutIn <;> decide

/-- The high half of `minstret` is enabled when it has a carry to take. -/
def Minstret.Enabled (s : Minstret) : Prop := s.minstretlCoutF = true → s.minstretEnableF = true

theorem MinstretIn.retired_lt (i : MinstretIn) : i.retired < 2 ^ 32 := by
  unfold MinstretIn.retired
  cases i.i0ValidNoEbreakEcallWb <;> cases i.i1ValidWb <;> decide

theorem MinstretIn.retired_eq_zero {i : MinstretIn} (h : (i.i0ValidNoEbreakEcallWb || i.i1ValidWb) = false) :
    i.retired = 0 := by
  rw [Bool.or_eq_false_iff] at h
  unfold MinstretIn.retired
  rw [h.1, h.2]
  rfl

/-- After a cycle the high half of `minstret` is enabled when it has a carry to take. -/
theorem Minstret.enabled_next (s : Minstret) (i : MinstretIn) : (s.next i).Enabled := by
  unfold Enabled next
  dsimp only
  rw [Bool.and_eq_true, lowSum_cout _ i.retired_lt, decide_eq_true_eq]
  rintro ⟨hcarry, -⟩
  by_contra hen
  have := s.minstretl.isLt
  rw [MinstretIn.retired_eq_zero (Bool.not_eq_true _ ▸ hen)] at hcarry
  omega

/-- In every run the high half of `minstret` is enabled when it has a carry to take. -/
theorem Minstret.enabled_run (w : Nat → MinstretIn) (n : Nat) : (machine.run w n).Enabled := by
  cases n with
  | zero => exact fun h => nomatch h
  | succ n => exact enabled_next _ _

/-- A cycle counts what retires in `minstret`, and a write to a half replaces that half. -/
theorem Minstret.read_next {s : Minstret} (hs : s.Enabled) (i : MinstretIn) :
    (s.next i).read = SplitCounter.ripple i.retired (i.csr.toHalf minstretLAddr minstretHAddr) s.read := by
  have hlow : (i.i0ValidNoEbreakEcallWb || i.i1ValidWb) = false →
      (lowSum s.minstretl i.retired).extractLsb' 0 32 = s.minstretl := by
    intro h
    rw [MinstretIn.retired_eq_zero h, lowSum_inc]
    exact BitVec.add_zero _
  have hhigh : s.minstretEnableF = false → s.minstrethInc = s.minstreth := by
    intro h
    unfold minstrethInc
    have hcout : s.minstretlCoutF = false := by
      cases hc : s.minstretlCoutF with
      | false => rfl
      | true => exact absurd (h.symm.trans (hs hc)) Bool.false_ne_true
    rw [hcout]
    exact BitVec.add_zero _
  unfold read
  conv_lhs => unfold minstrethInc next
  dsimp only
  rw [Bool.or_comm (i.i0ValidNoEbreakEcallWb || i.i1ValidWb), rvdffs_of_or hlow, Bool.or_comm s.minstretEnableF,
    rvdffs_of_or hhigh]
  exact ripple_of_halves (by decide) i.retired_lt rfl

/-! ## `mtime` -/

open Tick

/-- The counter as loads read it. -/
def mtimeRead (s : TickSources) : BitVec 64 := s.timer.reqRdata mtimeHi ++ s.timer.reqRdata mtimeLo

/-- The store of a request to a half of `mtime`, by the bytes it selects. -/
def mtimeWrite (req : Option Payload) (c : BitVec 64) : Option SplitCounter.Write :=
  match req.filter timerSel with
  | none => none
  | some p =>
    if p.write && p.addr.extractLsb' 2 6 == 0x00 then
      some (.low (MachineTimer.mergeWstrb (SplitCounter.lowOf c) p.wdata p.wstrb))
    else if p.write && p.addr.extractLsb' 2 6 == 0x01 then
      some (.high (MachineTimer.mergeWstrb (SplitCounter.highOf c) p.wdata p.wstrb))
    else none

/-- What is read by halves is the counter. -/
theorem mtimeRead_eq (s : TickSources) : mtimeRead s = s.timer.mtime := by
  rw [mtimeRead, reqRdata_mtimeHi, reqRdata_mtimeLo, SplitCounter.append_halves]

/-- In a cycle `mtime` takes the carry along, or overwrites it. -/
theorem mtimeRead_next (s : TickSources) (req : Option Payload) :
    mtimeRead (s.next req) =
      SplitCounter.ripple (s.timer.timerCtrl.getLsbD 0).toNat (mtimeWrite req (mtimeRead s)) (mtimeRead s) := by
  have hcount : s.timer.count = s.timer.mtime + BitVec.ofNat 64 (s.timer.timerCtrl.getLsbD 0).toNat := by
    unfold MachineTimer.count
    cases s.timer.timerCtrl.getLsbD 0 with
    | false => exact (BitVec.add_zero _).symm
    | true => rfl
  rw [mtimeRead_eq, mtimeRead_eq]
  unfold TickSources.next mtimeWrite MachineTimer.next SplitCounter.ripple
  dsimp only
  cases req.filter timerSel with
  | none => exact hcount
  | some p =>
    dsimp only
    rw [← hcount]
    cases hwrite : p.write with
    | false => rfl
    | true =>
      simp only [Bool.not_true, Bool.false_eq_true, if_false, Bool.true_and, beq_iff_eq]
      split_ifs <;> rfl

end Counters

end SocRV
