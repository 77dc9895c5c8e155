import SocRV.Core.DivCtl
import SocRV.Lib.LongDivision

/-!
# The iteration of the divider

The divider works on the magnitudes of its operands.  After `c` steps it has taken in `c` digits of the dividend: the
quotient of so many digits stands in the low bits of `q_ff`, the digits to come above it, and `a_ff` holds what a
non-restoring divider keeps of the remainder.
-/

namespace SocRV

open LongDivision

namespace DivIn

variable (i : DivIn)

/-- The dividend is divided as its negative. -/
def dividendNeg : Bool := !i.unsign && i.divisor != 0 && i.dividend.msb

/-- The divisor is divided by as its negative. -/
def divisorNeg : Bool := !i.unsign && i.divisor.msb

/-- The magnitude of the dividend. -/
def d : Nat := if i.dividendNeg then (-i.dividend).toNat else i.dividend.toNat

/-- The magnitude of the divisor. -/
def m : Nat := if i.divisorNeg then (-i.divisor).toNat else i.divisor.toNat

theorem d_lt : i.d < 2 ^ 32 := by
  unfold d
  split_ifs
  · exact (-i.dividend).isLt
  · exact i.dividend.isLt

theorem m_lt : i.m < 2 ^ 32 := by
  unfold m
  split_ifs
  · exact (-i.divisor).isLt
  · exact i.divisor.isLt

/-- The magnitude is 0 only for the divisor 0. -/
theorem m_eq_zero_iff : i.m = 0 ↔ i.divisor = 0 := by
  have hlt := i.divisor.isLt
  have hzero : i.divisor = 0 ↔ i.divisor.toNat = 0 := BitVec.toNat_eq
  rw [hzero, m]
  split_ifs
  · rw [BitVec.toNat_neg]
    omega
  · exact Iff.rfl

/-- A divisor that is negated is not 0. -/
theorem m_pos_of_neg (h : i.divisorNeg = true) : 0 < i.m := by
  rw [Nat.pos_iff_ne_zero, ne_eq, i.m_eq_zero_iff]
  intro h0
  simp [divisorNeg, h0] at h

end DivIn

namespace DivCtl

/-- The registers hold the operation that was issued. -/
structure Holds (s : DivCtl) (i : DivIn) : Prop where
  mFf : s.mFf = BitVec.ofBool (!i.unsign && i.divisor.msb) ++ i.divisor
  remFf : s.remFf = i.rem
  signedOpFf : s.signedOpFf = !i.unsign
  dividendNegFf : s.dividendNegFf = i.dividend.msb

variable {s : DivCtl} {i j : DivIn} {c : Nat}

/-- Without a new operation the registers keep the one that was issued. -/
theorem Holds.next (h : s.Holds i) (hj : j.valid = false) : (s.next j).Holds i := by
  refine ⟨?_, ?_, ?_, ?_⟩
  · simp only [DivCtl.next, hj, rvdffs_false, h.mFf]
  · simp only [DivCtl.next, hj, rvdffs_false, h.remFf]
  · simp only [DivCtl.next, hj, rvdffs_false, h.signedOpFf]
  · simp only [DivCtl.next, hj, rvdffs_false, h.dividendNegFf]

namespace Holds

variable (h : s.Holds i)

include h

/-- The divisor register is the divisor. -/
theorem m_eq : s.m = i.divisor := by
  unfold DivCtl.m
  rw [h.mFf]
  apply BitVec.eq_of_toNat_eq
  have hlt := i.divisor.isLt
  rw [BitVec.extractLsb'_toNat, BitVec.toNat_append, ← Nat.shiftLeft_add_eq_or_of_lt hlt, Nat.shiftLeft_eq,
    Nat.shiftRight_zero]
  omega

/-- The sign bit says that signs count and the divisor is not zero. -/
theorem signFf_eq : s.signFf = (!i.unsign && i.divisor != 0) := by
  rw [signFf, h.signedOpFf, h.m_eq]

/-- The registers know the sign of the dividend. -/
theorem dividendNeg_eq : (s.signFf && s.dividendNegFf) = i.dividendNeg := by
  rw [h.signFf_eq, h.dividendNegFf]
  rfl

/-- The registers know the sign of the divisor. -/
theorem divisorNeg_eq : (s.divisorNegFf && s.signFf) = i.divisorNeg := by
  rw [h.signFf_eq, divisorNegFf, h.m_eq, DivIn.divisorNeg]
  by_cases h0 : i.divisor = 0
  · rw [h0]
    simp
  · have hne : (i.divisor != 0) = true := by simpa using h0
    rw [hne, Bool.and_true, Bool.and_comm]

/-- `dividend_eff` is the magnitude as long as `q_ff` holds the dividend. -/
theorem dividendEff_toNat (hq : s.q = i.dividend) : s.dividendEff.toNat = i.d := by
  rw [dividendEff, h.dividendNeg_eq, hq, DivIn.d]
  split_ifs <;> rfl

/-- The divisor as the adder sees it. -/
theorem mFf_toNat : s.mFf.toNat = if i.divisorNeg then 2 ^ 33 - i.m else i.m := by
  have hlt := i.divisor.isLt
  rw [h.mFf, BitVec.toNat_append, ← Nat.shiftLeft_add_eq_or_of_lt hlt, Nat.shiftLeft_eq, BitVec.toNat_ofBool,
    DivIn.m]
  cases hneg : i.divisorNeg with
  | false =>
    unfold DivIn.divisorNeg at hneg
    rw [hneg, if_neg (by decide), if_neg (by decide), Bool.toNat_false, Nat.zero_mul, Nat.zero_add]
  | true =>
    have hmsb : i.divisor.msb = true := by
      unfold DivIn.divisorNeg at hneg
      exact (Bool.and_eq_true_iff.mp hneg).2
    rw [BitVec.msb_eq_decide, decide_eq_true_eq] at hmsb
    unfold DivIn.divisorNeg at hneg
    rw [hneg, if_pos rfl, if_pos rfl, Bool.toNat_true, BitVec.toNat_neg]
    omega

/-- A step of the adder: the magnitude of the divisor is subtracted, or added if `a_ff` is negative. -/
theorem aIn_toNat (hrun : s.runState = true) :
    (s.aIn.toNat : Int) =
      (s.aEff.toNat + if (s.aFf.msb || s.remCorrect) then (i.m : Int) else -(i.m : Int)) % 2 ^ 33 := by
  have hm := h.mFf_toNat
  have hlt := i.m_lt
  have hadd : s.add = ((s.aFf.msb || s.remCorrect) ^^ i.divisorNeg) := by rw [add, h.divisorNeg_eq]
  rw [aIn, if_pos hrun, BitVec.toNat_add, BitVec.toNat_add, hadd]
  cases hneg : i.divisorNeg with
  | false =>
    rw [hneg, if_neg (by decide)] at hm
    cases s.aFf.msb || s.remCorrect
    · simp [hm]
      omega
    · simp [hm]
  | true =>
    have hpos := i.m_pos_of_neg hneg
    rw [hneg, if_pos rfl] at hm
    cases s.aFf.msb || s.remCorrect
    · simp [hm]
      omega
    · simp [hm]
      omega

end Holds

/-- The registers after `c` digits. -/
structure Iterated (s : DivCtl) (i : DivIn) (c : Nat) : Prop where
  holds : s.Holds i
  aFf : (s.aFf.toNat : Int) = kept i.m i.d 33 c % 2 ^ 33
  qFf : s.qFf.toNat = i.d * 2 ^ c % 2 ^ 33 + quot i.m i.d 33 c

/-- In 33 bits the magnitude of the dividend has room. -/
theorem d_lt_33 (i : DivIn) : i.d < 2 ^ 33 := Nat.lt_trans i.d_lt (by decide)

/-- What the iteration keeps fits into 33 bits with a sign. -/
theorem kept_bounds_33 (i : DivIn) (hc : c ≤ 33) :
    -((2 ^ 32 : Nat) : Int) ≤ kept i.m i.d 33 c ∧ kept i.m i.d 33 c < (2 ^ 32 : Nat) :=
  kept_bounds hc (d_lt_33 i) i.d_lt (Nat.le_of_lt i.m_lt)

/-- The sign of what is kept, in a register. -/
theorem msb_of_kept {x : BitVec 33} (hc : c ≤ 33) (hx : (x.toNat : Int) = kept i.m i.d 33 c % 2 ^ 33) :
    x.msb = decide (kept i.m i.d 33 c < 0) := by
  have hbounds := kept_bounds_33 i hc
  rw [BitVec.msb_eq_decide, decide_eq_decide]
  omega

/-- The quotient with the digit that the adder gives. -/
theorem quot_of_kept {x : BitVec 33} (hc : c + 1 ≤ 33) (hx : (x.toNat : Int) = kept i.m i.d 33 (c + 1) % 2 ^ 33) :
    quot i.m i.d 33 (c + 1) = 2 * quot i.m i.d 33 c + (!x.msb).toNat := by
  rw [quot_succ_eq, msb_of_kept hc hx]
  split_ifs with hneg <;> simp [hneg]

/-- What the adder gives is kept after one digit more, if the shifted remainder went in. -/
theorem Holds.aIn_kept (h : s.Holds i) (hrun : s.runState = true) (hrem : s.remCorrect = false)
    (hin : (s.aEff.toNat + (if s.aFf.msb then (i.m : Int) else -(i.m : Int))) % 2 ^ 33 =
      kept i.m i.d 33 (c + 1) % 2 ^ 33) : (s.aIn.toNat : Int) = kept i.m i.d 33 (c + 1) % 2 ^ 33 := by
  rw [h.aIn_toNat hrun, hrem, Bool.or_false, hin]

/-- The remainder is corrected only at the last count. -/
theorem remCorrect_of_count (h : s.count ≠ 33) : s.remCorrect = false := by
  have hcount : (s.count == 33) = false := by simpa using h
  rw [remCorrect, hcount, Bool.false_and, Bool.false_and]

/-- The divider runs, past the cycles in which it takes the operation in. -/
structure Steady (s : DivCtl) : Prop where
  runState : s.runState = true
  validFfE1 : s.validFfE1 = false
  shortqEnableFf : s.shortqEnableFf = false
  shortqShiftXx : s.shortqShiftXx = 0

/-- The short cut is taken only in the cycle after the operation was taken in. -/
theorem shortqEnable_of_not_valid (h : s.validFfE1 = false) : s.shortqEnable = false := by
  rw [shortqEnable, h, Bool.false_and, Bool.false_and]

/-- One step takes one digit in. -/
theorem Iterated.next (h : s.Iterated i (c + 1)) (hc : c + 1 ≤ 32) (hs : s.Steady) (hcount : s.count ≠ 33)
    (hj : j.valid = false) : (s.next j).Iterated i (c + 2) := by
  have hquot := quot_lt (m := i.m) (d := i.d) (n := 33) (c := c + 1)
  have htop := window_top (d := i.d) hc hquot
  have hnext := window_next (d := i.d) hc hquot
  have hstep := kept_step (m := i.m) (d := i.d) (n := 33) (c := c + 1)
  have hmsb := msb_of_kept (by omega) h.aFf
  have hneg := kept_neg_iff (m := i.m) (d := i.d) (n := 33) (c := c)
  have hrem := remCorrect_of_count hcount
  have henable := shortqEnable_of_not_valid hs.validFfE1
  have haEff : s.aEff.toNat = s.aFf.toNat % 2 ^ 32 * 2 + digit i.d 33 (c + 1) := by
    have hbit : s.qFf.toNat / 2 ^ 32 % 2 = digit i.d 33 (c + 1) := by
      rw [h.qFf, htop]
      exact Nat.mod_eq_of_lt (digit_lt _ _ _)
    have hlt := (s.qFf.extractLsb' 32 1).isLt
    rw [aEff, hrem, if_neg (by decide), hs.shortqEnableFf, if_neg (by decide), BitVec.toNat_append,
      ← Nat.shiftLeft_add_eq_or_of_lt hlt, Nat.shiftLeft_eq, BitVec.extractLsb'_toNat, BitVec.extractLsb'_toNat,
      Nat.shiftRight_zero, Nat.shiftRight_eq_div_pow, hbit]
  have haIn : (s.aIn.toNat : Int) = kept i.m i.d 33 (c + 2) % 2 ^ 33 := by
    refine h.holds.aIn_kept hs.runState hrem ?_
    have hkept := h.aFf
    rw [haEff, hmsb, hstep]
    by_cases hk : kept i.m i.d 33 (c + 1) < 0
    · have hodd : ¬quot i.m i.d 33 (c + 1) % 2 = 1 := by omega
      rw [decide_eq_true hk, if_pos rfl, if_neg hodd]
      omega
    · have hodd : quot i.m i.d 33 (c + 1) % 2 = 1 := by omega
      rw [decide_eq_false hk, if_neg (by decide), if_pos hodd]
      omega
  refine ⟨h.holds.next hj, ?_, ?_⟩
  · have ha : (s.next j).aFf = s.aIn := by
      have hne : (s.count != 33) = true := by simpa using hcount
      simp only [DivCtl.next, hj, hs.runState, henable, hne, Bool.not_false, Bool.and_true, Bool.or_true,
        Bool.true_or, rvdffs_true]
    rw [ha]
    exact haIn
  · have hq : (s.next j).qFf = s.q ++ BitVec.ofBool !s.aIn.msb := by
      simp [DivCtl.next, hj, hs.runState, henable, qIn, hs.validFfE1, hs.shortqEnableFf]
    have hlt := (BitVec.ofBool !s.aIn.msb).isLt
    rw [hq, BitVec.toNat_append, ← Nat.shiftLeft_add_eq_or_of_lt hlt, Nat.shiftLeft_eq, q, BitVec.extractLsb'_toNat,
      Nat.shiftRight_zero, h.qFf, hnext, BitVec.toNat_ofBool, quot_of_kept (by omega) haIn]
    exact Nat.add_assoc _ _ _

end DivCtl

end SocRV
