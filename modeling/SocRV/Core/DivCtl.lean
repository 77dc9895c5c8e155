import SocRV.Core.Primitives

/-!
# The divider

`exu_div_ctl` computes one bit of the quotient a cycle.  A division of two small numbers is answered in E1
from a table, and one of operands of known size skips the leading bits of the quotient.  Its control is what the
pipeline sees: the stall while it runs, the pulse with which it finishes, and how a flush stops it.
-/

namespace SocRV

/-- `smallnum[3]`, from the low bits of the dividend and the divisor. -/
def smallnum3 (q m : Nat → Bool) : Bool :=
  q 3 && !m 3 && !m 2 && !m 1

/-- `smallnum[2]`, from the low bits of the dividend and the divisor. -/
def smallnum2 (q m : Nat → Bool) : Bool :=
  (q 3 && !m 3 && !m 2 && !m 0) || (q 2 && !m 3 && !m 2 && !m 1) || (q 3 && q 2 && !m 3 && !m 2)

/-- `smallnum[1]`, from the low bits of the dividend and the divisor. -/
def smallnum1 (q m : Nat → Bool) : Bool :=
  (q 2 && !m 3 && !m 2 && !m 0) || (q 1 && !m 3 && !m 2 && !m 1) || (q 3 && !m 3 && !m 1 && !m 0) ||
    (q 3 && !q 2 && !m 3 && !m 2 && m 1 && m 0) || (!q 3 && q 2 && q 1 && !m 3 && !m 2) ||
    (q 3 && q 2 && !m 3 && !m 0) || (q 3 && q 2 && !m 3 && m 2 && !m 1) || (q 3 && q 1 && !m 3 && !m 1) ||
    (q 3 && q 2 && q 1 && !m 3 && m 2)

/-- `smallnum[0]`, from the low bits of the dividend and the divisor. -/
def smallnum0 (q m : Nat → Bool) : Bool :=
  (q 2 && q 1 && q 0 && !m 3 && !m 1) || (q 3 && !q 2 && q 0 && !m 3 && m 1 && m 0) ||
    (q 2 && !m 3 && !m 1 && !m 0) || (q 1 && !m 3 && !m 2 && !m 0) || (q 0 && !m 3 && !m 2 && !m 1) ||
    (!q 3 && q 2 && !q 1 && !m 3 && !m 2 && m 1 && m 0) || (!q 3 && q 2 && q 1 && !m 3 && !m 0) ||
    (q 3 && !m 2 && !m 1 && !m 0) || (q 3 && !q 2 && !m 3 && m 2 && m 1) ||
    (!q 3 && q 2 && q 1 && !m 3 && m 2 && !m 1) || (!q 3 && q 2 && q 0 && !m 3 && !m 1) ||
    (q 3 && !q 2 && !q 1 && !m 3 && m 2 && m 0) || (!q 2 && q 1 && q 0 && !m 3 && !m 2) ||
    (q 3 && q 2 && !m 1 && !m 0) || (q 3 && q 1 && !m 2 && !m 0) || (!q 3 && q 2 && q 1 && q 0 && !m 3 && m 2) ||
    (q 3 && q 2 && m 3 && !m 2) || (q 3 && q 1 && m 3 && !m 2 && !m 1) || (q 3 && q 0 && !m 2 && !m 1) ||
    (q 3 && !q 1 && !m 3 && m 2 && m 1 && m 0) || (q 3 && q 2 && q 1 && m 3 && !m 0) ||
    (q 3 && q 2 && q 1 && m 3 && !m 1) || (q 3 && q 2 && q 0 && m 3 && !m 1) ||
    (q 3 && !q 2 && q 1 && !m 3 && m 1) || (q 3 && q 1 && q 0 && !m 2) || (q 3 && q 2 && q 1 && q 0 && m 3)

/-- The registers of `exu_div_ctl`. -/
structure DivCtl where
  flushLowerFf : Bool := false
  validFfE1 : Bool := false
  runState : Bool := false
  count : BitVec 6 := 0
  dividendNegFf : Bool := false
  signedOpFf : Bool := false
  remFf : Bool := false
  smallnumCaseFf : Bool := false
  smallnumFf : BitVec 4 := 0
  mFf : BitVec 33 := 0
  qFf : BitVec 33 := 0
  aFf : BitVec 33 := 0
  shortqEnableFf : Bool := false
  shortqShiftXx : BitVec 4 := 0

/-- The ports of `exu_div_ctl`, with the fields of `div_pkt_t`. -/
structure DivIn where
  valid : Bool := false
  unsign : Bool := false
  rem : Bool := false
  dividend : BitVec 32 := 0
  divisor : BitVec 32 := 0
  flushLower : Bool := false
  fastDivDisable : Bool := false

namespace DivCtl

variable (s : DivCtl) (i : DivIn)

/-- `q_ff[31:0]`. -/
def q : BitVec 32 := s.qFf.extractLsb' 0 32

/-- `m_ff[31:0]`. -/
def m : BitVec 32 := s.mFf.extractLsb' 0 32

/-- `divisor_neg_ff`. -/
def divisorNegFf : Bool := s.m.msb

/-- `sign_ff`. -/
def signFf : Bool := s.signedOpFf && s.m != 0

/-- `valid_e1`. -/
def validE1 : Bool := s.validFfE1 && !s.flushLowerFf

/-- `smallnum_case`, which is also `finish_early`. -/
def smallnumCase : Bool :=
  (s.q.extractLsb' 4 28 == 0#28 && s.m.extractLsb' 4 28 == 0#28 && s.m != 0 && !s.remFf && s.validE1 &&
    !i.fastDivDisable) ||
  (s.q == 0 && s.m != 0 && !s.remFf && s.validE1 && !i.fastDivDisable)

/-- `smallnum`. -/
def smallnum : BitVec 4 :=
  let q := s.qFf.getLsbD
  let m := s.mFf.getLsbD
  BitVec.ofBool (smallnum3 q m) ++ BitVec.ofBool (smallnum2 q m) ++ BitVec.ofBool (smallnum1 q m) ++
    BitVec.ofBool (smallnum0 q m)

/-! ## The skipped bits of the quotient -/

/-- `short_dividend[32]`. -/
def shortDividendSign : Bool := s.signFf && s.q.msb

/-- `a_cls[2:0]`, highest first. -/
def aCls : Bool × Bool × Bool :=
  (if s.shortDividendSign then s.q.extractLsb' 23 9 != 0x1ff#9 else s.q.extractLsb' 24 8 != 0#8,
    if s.shortDividendSign then s.q.extractLsb' 15 8 != 0xff#8 else s.q.extractLsb' 16 8 != 0#8,
    if s.shortDividendSign then s.q.extractLsb' 7 8 != 0xff#8 else s.q.extractLsb' 8 8 != 0#8)

/-- `b_cls[2:0]`, highest first. -/
def bCls : Bool × Bool × Bool :=
  (if s.mFf.msb then s.m.extractLsb' 24 8 != 0xff#8 else s.m.extractLsb' 24 8 != 0#8,
    if s.mFf.msb then s.m.extractLsb' 16 8 != 0xff#8 else s.m.extractLsb' 16 8 != 0#8,
    if s.mFf.msb then s.m.extractLsb' 8 8 != 0xff#8 else s.m.extractLsb' 8 8 != 0#8)

/-- `shortq_raw[3:0]`. -/
def shortqRaw : BitVec 4 :=
  match s.aCls, s.bCls with
  | (true, _, _), (true, _, _) => 0b0100
  | (true, _, _), (false, true, _) => 0b0010
  | (true, _, _), (false, false, true) => 0b0001
  | (true, _, _), (false, false, false) => 0
  | (false, true, _), (true, _, _) => 0b1000
  | (false, true, _), (false, true, _) => 0b0100
  | (false, true, _), (false, false, true) => 0b0010
  | (false, true, _), (false, false, false) => 0b0001
  | (false, false, true), (true, _, _) => 0b1000
  | (false, false, true), (false, true, _) => 0b1000
  | (false, false, true), (false, false, true) => 0b0100
  | (false, false, true), (false, false, false) => 0b0010
  | (false, false, false), (true, _, _) => 0b1000
  | (false, false, false), (false, true, _) => 0b1000
  | (false, false, false), (false, false, true) => 0b1000
  | (false, false, false), (false, false, false) => 0b0100

/-- `shortq_enable`. -/
def shortqEnable : Bool := s.validFfE1 && s.m != 0 && s.shortqRaw != 0

/-- `shortq_shift_ff`. -/
def shortqShiftFf : BitVec 6 :=
  (if s.shortqShiftXx.getLsbD 3 then 0b011111#6 else 0) ||| (if s.shortqShiftXx.getLsbD 2 then 0b011000#6 else 0) |||
    (if s.shortqShiftXx.getLsbD 1 then 0b010000#6 else 0) ||| (if s.shortqShiftXx.getLsbD 0 then 0b001000#6 else 0)

/-! ## Control -/

/-- `finish`. -/
def finish : Bool :=
  (s.smallnumCase i || (if s.remFf then s.count == 33 else s.count == 32)) && !i.flushLower && !s.flushLowerFf

/-- `run_in`. -/
def runIn : Bool := (i.valid || s.runState) && !s.finish i && !s.flushLowerFf

/-- `count_in`. -/
def countIn : BitVec 6 :=
  if s.runState && !s.finish i && !s.flushLowerFf && !s.shortqEnable then s.count + s.shortqShiftFf + 1 else 0

/-! ## The iteration -/

/-- `rem_correct`. -/
def remCorrect : Bool := s.count == 33 && s.remFf && s.aFf.msb

/-- `add`. -/
def add : Bool := (s.aFf.msb || s.remCorrect) ^^ (s.divisorNegFf && s.signFf)

/-- `dividend_eff`. -/
def dividendEff : BitVec 32 := if s.signFf && s.dividendNegFf then -s.q else s.q

/-- `a_eff`. -/
def aEff : BitVec 33 :=
  if s.remCorrect then s.aFf
  else if s.shortqEnableFf then ((s.dividendEff.zeroExtend 65) <<< s.shortqShiftFf.toNat).extractLsb' 32 33
  else s.aFf.extractLsb' 0 32 ++ s.qFf.extractLsb' 32 1

/-- `a_in`. -/
def aIn : BitVec 33 :=
  if s.runState then s.aEff + (if s.add then s.mFf else ~~~s.mFf) + (if s.add then 0 else 1) else 0

/-- `q_in`. -/
def qIn (dividend : BitVec 32) : BitVec 33 :=
  if !s.runState then dividend.zeroExtend 33
  else if s.validFfE1 || s.shortqEnableFf then
    (s.dividendEff ++ BitVec.ofBool !s.aIn.msb) <<< s.shortqShiftFf.toNat
  else s.q ++ BitVec.ofBool !s.aIn.msb

/-- `out`. -/
def out : BitVec 32 :=
  let quotient := if s.signFf && (s.dividendNegFf ^^ s.divisorNegFf) then -s.q else s.q
  let remainder := if s.signFf && s.dividendNegFf then -(s.aFf.extractLsb' 0 32) else s.aFf.extractLsb' 0 32
  (if s.smallnumCaseFf then s.smallnumFf.zeroExtend 32 else 0) ||| (if s.remFf then remainder else 0) |||
    (if !s.smallnumCaseFf && !s.remFf then quotient else 0)

/-- The registers after a core cycle. -/
def next : DivCtl where
  flushLowerFf := i.flushLower
  validFfE1 := i.valid && !s.flushLowerFf
  runState := s.runIn i
  count := s.countIn i
  dividendNegFf := rvdffs i.valid i.dividend.msb s.dividendNegFf
  signedOpFf := rvdffs i.valid (!i.unsign) s.signedOpFf
  remFf := rvdffs i.valid i.rem s.remFf
  smallnumCaseFf := s.smallnumCase i
  smallnumFf := s.smallnum
  mFf := rvdffs i.valid (BitVec.ofBool (!i.unsign && i.divisor.msb) ++ i.divisor) s.mFf
  qFf := rvdffs (i.valid || (s.runState && !s.shortqEnable)) (s.qIn i.dividend) s.qFf
  aFf := rvdffs (i.valid || (s.runState && !s.shortqEnable && s.count != 33) || s.remCorrect) s.aIn s.aFf
  shortqEnableFf := s.shortqEnable
  shortqShiftXx := if s.shortqEnable then s.shortqRaw else 0

/-! ## When it runs -/

variable {s : DivCtl} {i : DivIn}

/-- The counter and the operation in E1 belong to a running division. -/
structure Running (s : DivCtl) : Prop where
  count : s.runState = false → s.count = 0
  valid : s.validFfE1 = true → s.runState = true

theorem running_reset : Running {} := ⟨fun _ => rfl, nofun⟩

/-- A division finishes only while it runs and no flush is near. -/
theorem Running.of_finish (h : Running s) (hf : s.finish i = true) :
    s.runState = true ∧ i.flushLower = false ∧ s.flushLowerFf = false := by
  simp only [finish, Bool.and_eq_true, Bool.or_eq_true, Bool.not_eq_true'] at hf
  obtain ⟨⟨hdone, hfl⟩, hff⟩ := hf
  refine ⟨?_, hfl, hff⟩
  by_contra hrun
  rw [Bool.not_eq_true] at hrun
  have hcount := h.count hrun
  have hvalid : s.validFfE1 = false := by
    by_contra hv
    rw [Bool.not_eq_false] at hv
    rw [h.valid hv] at hrun
    cases hrun
  rcases hdone with hsmall | hdone
  · simp [smallnumCase, validE1, hvalid] at hsmall
  · simp [hcount] at hdone

/-- Decode issues a division only while none runs. -/
theorem Running.next (h : Running s) (hi : i.valid = true → s.runState = false) : Running (s.next i) := by
  constructor
  · intro hrun
    simp only [DivCtl.next, runIn, countIn] at hrun ⊢
    rw [if_neg]
    intro hc
    simp only [Bool.and_eq_true, Bool.not_eq_true'] at hc
    simp [hc.1.1.1, hc.1.1.2, hc.1.2] at hrun
  · intro hv
    simp only [DivCtl.next, Bool.and_eq_true, Bool.not_eq_true'] at hv
    have hidle := hi hv.1
    have hfin : s.finish i = false := by
      by_contra hf
      rw [Bool.not_eq_false] at hf
      rw [(h.of_finish hf).1] at hidle
      cases hidle
    simp [DivCtl.next, runIn, hv.1, hv.2, hfin]

end DivCtl

end SocRV
