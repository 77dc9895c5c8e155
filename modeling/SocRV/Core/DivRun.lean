import SocRV.Core.DivIterate

/-!
# A division from its issue to its result

An operation that is issued is answered from the table of small numbers, or it starts to iterate at once, or it first
skips the digits of the quotient that are known to be 0.  However it starts, the iteration ends after the last digit
with the quotient, or one cycle later with the remainder.
-/

namespace SocRV

open LongDivision

/-- The result of `DIV`, `DIVU`, `REM` and `REMU`: the quotient is truncated, the remainder has the sign of the dividend,
a division by 0 gives all ones and the dividend, and the quotient that overflows wraps. -/
def DivIn.result (i : DivIn) : BitVec 32 :=
  match i.unsign, i.rem with
  | false, false => if i.divisor = 0 then BitVec.allOnes 32 else BitVec.ofInt 32 (i.dividend.toInt.tdiv i.divisor.toInt)
  | false, true => if i.divisor = 0 then i.dividend else BitVec.ofInt 32 (i.dividend.toInt.tmod i.divisor.toInt)
  | true, false =>
    if i.divisor = 0 then BitVec.allOnes 32 else BitVec.ofNat 32 (i.dividend.toNat / i.divisor.toNat)
  | true, true => if i.divisor = 0 then i.dividend else BitVec.ofNat 32 (i.dividend.toNat % i.divisor.toNat)

namespace DivIn

variable {i : DivIn}

/-- A word is its magnitude with its sign. -/
theorem toInt_magnitude (x : BitVec 32) :
    x.toInt = if x.msb then -((-x).toNat : Int) else (x.toNat : Int) := by
  have hlt := x.isLt
  rw [BitVec.toInt_eq_toNat_cond, BitVec.toNat_neg, BitVec.msb_eq_decide]
  by_cases h : 2 * x.toNat < 2 ^ 32
  · have hno : ¬2 ^ (32 - 1) ≤ x.toNat := by omega
    rw [if_pos h, decide_eq_false hno, if_neg (by decide)]
  · have hyes : 2 ^ (32 - 1) ≤ x.toNat := by omega
    rw [if_neg h, decide_eq_true hyes, if_pos rfl, Nat.mod_eq_of_lt (by omega), Int.ofNat_sub (Nat.le_of_lt hlt)]
    omega

/-- A signed dividend is its magnitude with its sign. -/
theorem toInt_dividend (hs : i.unsign = false) (h0 : i.divisor ≠ 0) :
    i.dividend.toInt = if i.dividendNeg then -(i.d : Int) else i.d := by
  have hne : (i.divisor != 0) = true := by simpa using h0
  have hneg : i.dividendNeg = i.dividend.msb := by
    rw [dividendNeg, hs, hne, Bool.not_false, Bool.true_and, Bool.true_and]
  rw [toInt_magnitude, d, hneg]
  cases i.dividend.msb with
  | false => rw [if_neg (by decide), if_neg (by decide), if_neg (by decide)]
  | true => rw [if_pos rfl, if_pos rfl, if_pos rfl]

/-- A signed divisor is its magnitude with its sign. -/
theorem toInt_divisor (hs : i.unsign = false) :
    i.divisor.toInt = if i.divisorNeg then -(i.m : Int) else i.m := by
  have hneg : i.divisorNeg = i.divisor.msb := by rw [divisorNeg, hs, Bool.not_false, Bool.true_and]
  rw [toInt_magnitude, m, hneg]
  cases i.divisor.msb with
  | false => rw [if_neg (by decide), if_neg (by decide), if_neg (by decide)]
  | true => rw [if_pos rfl, if_pos rfl, if_pos rfl]

/-- By 0 nothing is negated. -/
theorem dividendNeg_of_zero (h0 : i.divisor = 0) : i.dividendNeg = false := by
  rw [dividendNeg, h0]
  simp

/-- The quotient by the magnitudes. -/
theorem result_quotient (hr : i.rem = false) (h0 : i.divisor ≠ 0) :
    i.result = if (i.dividendNeg ^^ i.divisorNeg) then -BitVec.ofNat 32 (i.d / i.m) else BitVec.ofNat 32 (i.d / i.m) := by
  unfold result
  rw [hr]
  cases hs : i.unsign with
  | true =>
    have hd : i.dividendNeg = false := by rw [dividendNeg, hs]; rfl
    have hm : i.divisorNeg = false := by rw [divisorNeg, hs]; rfl
    simp only [if_neg h0, d, m, hd, hm, Bool.xor_self, Bool.false_eq_true, if_false]
  | false =>
    simp only [if_neg h0, toInt_dividend hs h0, toInt_divisor hs]
    cases i.dividendNeg <;> cases i.divisorNeg <;>
      simp only [Bool.false_eq_true, if_false, if_true, Bool.xor_self, Bool.xor_false, Bool.xor_true, Bool.not_false,
        Int.neg_tdiv, Int.tdiv_neg, Int.neg_neg, BitVec.ofInt_neg, ← Int.ofNat_tdiv, BitVec.ofInt_natCast]

/-- The remainder by the magnitudes. -/
theorem result_remainder (hr : i.rem = true) (h0 : i.divisor ≠ 0) :
    i.result = if i.dividendNeg then -BitVec.ofNat 32 (i.d % i.m) else BitVec.ofNat 32 (i.d % i.m) := by
  unfold result
  rw [hr]
  cases hs : i.unsign with
  | true =>
    have hd : i.dividendNeg = false := by rw [dividendNeg, hs]; rfl
    have hm : i.divisorNeg = false := by rw [divisorNeg, hs]; rfl
    simp only [if_neg h0, d, m, hd, hm, Bool.false_eq_true, if_false]
  | false =>
    simp only [if_neg h0, toInt_dividend hs h0, toInt_divisor hs]
    cases i.dividendNeg <;> cases i.divisorNeg <;>
      simp only [Bool.false_eq_true, if_false, if_true, Int.neg_tmod, Int.tmod_neg, BitVec.ofInt_neg, ← Int.ofNat_tmod,
        BitVec.ofInt_natCast]

/-- What the digits of the magnitudes give is the result. -/
theorem result_eq (i : DivIn) : i.result =
    if i.rem then
      if i.dividendNeg then -BitVec.ofNat 32 (LongDivision.rem i.m i.d 33 33)
      else BitVec.ofNat 32 (LongDivision.rem i.m i.d 33 33)
    else
      if i.divisor != 0 && (i.dividendNeg ^^ i.divisorNeg) then -BitVec.ofNat 32 (quot i.m i.d 33 33)
      else BitVec.ofNat 32 (quot i.m i.d 33 33) := by
  have hd : i.d < 2 ^ 33 := Nat.lt_trans i.d_lt (by decide)
  by_cases h0 : i.divisor = 0
  · have hm : i.m = 0 := i.m_eq_zero_iff.mpr h0
    have hneg := dividendNeg_of_zero h0
    have hdiv : i.d = i.dividend.toNat := by rw [d, hneg, if_neg (by decide)]
    have hne : (i.divisor != 0) = false := by simp [h0]
    rw [hm, quot_zero_divisor, rem_zero_divisor hd, hneg, hne, hdiv, BitVec.ofNat_toNat, BitVec.setWidth_eq]
    cases hr : i.rem <;> cases hs : i.unsign <;> simp only [result, hr, hs, if_pos h0] <;> rfl
  · have hm : 0 < i.m := Nat.pos_of_ne_zero fun h => h0 (i.m_eq_zero_iff.mp h)
    have hne : (i.divisor != 0) = true := by simpa using h0
    rw [quot_eq_div hm hd, rem_eq_mod hm hd, hne, Bool.true_and]
    cases hr : i.rem with
    | false => exact result_quotient hr h0
    | true => exact result_remainder hr h0

end DivIn

namespace DivCtl

variable {s : DivCtl} {i j : DivIn} {c : Nat}

/-! ## The operation is issued -/

/-- No division is at work, and no flush is near. -/
structure Idle (s : DivCtl) : Prop where
  runState : s.runState = false
  flushLowerFf : s.flushLowerFf = false

/-- The cycle after the issue. -/
structure Issued (s : DivCtl) (i : DivIn) : Prop where
  holds : s.Holds i
  runState : s.runState = true
  validFfE1 : s.validFfE1 = true
  flushLowerFf : s.flushLowerFf = false
  shortqEnableFf : s.shortqEnableFf = false
  shortqShiftXx : s.shortqShiftXx = 0
  count : s.count = 0#6
  aFf : s.aFf = 0#33
  qFf : s.qFf = i.dividend.zeroExtend 33

/-- An idle divider counts nothing and takes nothing in. -/
theorem Running.idle_quiet (h : Running s) (hi : s.Idle) : s.count = 0 ∧ s.validFfE1 = false := by
  refine ⟨h.count hi.runState, ?_⟩
  by_contra hv
  rw [Bool.not_eq_false] at hv
  have hrun := h.valid hv
  rw [hi.runState] at hrun
  cases hrun

/-- Nothing finishes while no division is at work. -/
theorem Running.not_finish (h : Running s) (hrun : s.runState = false) : s.finish j = false := by
  by_contra hf
  rw [Bool.not_eq_false] at hf
  rw [(h.of_finish hf).1] at hrun
  cases hrun

/-- An idle divider takes an operation in. -/
theorem Running.issue (h : Running s) (hi : s.Idle) (hv : i.valid = true) (hf : i.flushLower = false) :
    (s.next i).Issued i := by
  obtain ⟨hcount, hvalid⟩ := h.idle_quiet hi
  have hfin := h.not_finish (j := i) hi.runState
  have hshort := shortqEnable_of_not_valid hvalid
  have haIn : s.aIn = 0#33 := by
    rw [aIn, hi.runState, if_neg (by decide)]
    rfl
  have hqIn : s.qIn i.dividend = i.dividend.zeroExtend 33 := by rw [qIn, hi.runState, Bool.not_false, if_pos rfl]
  refine ⟨⟨?_, ?_, ?_, ?_⟩, ?_, ?_, ?_, ?_, ?_, ?_, ?_, ?_⟩
  · simp only [DivCtl.next, hv, rvdffs_true]
  · simp only [DivCtl.next, hv, rvdffs_true]
  · simp only [DivCtl.next, hv, rvdffs_true]
  · simp only [DivCtl.next, hv, rvdffs_true]
  · simp only [DivCtl.next, runIn, hv, hfin, hi.flushLowerFf, Bool.true_or, Bool.not_false, Bool.and_self]
  · simp only [DivCtl.next, hv, hi.flushLowerFf, Bool.not_false, Bool.and_self]
  · simp only [DivCtl.next, hf]
  · simp only [DivCtl.next, hshort]
  · simp only [DivCtl.next, hshort, Bool.false_eq_true, if_false]
  · simp only [DivCtl.next, countIn, hi.runState, Bool.false_and, Bool.false_eq_true, if_false]
    rfl
  · simp only [DivCtl.next, hv, Bool.true_or, rvdffs_true, haIn]
  · simp only [DivCtl.next, hv, Bool.true_or, rvdffs_true, hqIn]

/-! ## The iteration -/

/-- The number of steps of an operation: the remainder takes one more, which corrects it. -/
def lastCount (i : DivIn) : Nat := if i.rem then 33 else 32

/-- A division at work with `c` digits taken in. -/
structure At (s : DivCtl) (i : DivIn) (c : Nat) : Prop where
  iterated : s.Iterated i c
  steady : s.Steady
  count : s.count.toNat = c
  flushLowerFf : s.flushLowerFf = false

/-- Nothing is issued and nothing is flushed. -/
structure Undisturbed (j : DivIn) : Prop where
  valid : j.valid = false
  flushLower : j.flushLower = false

/-- A divider that runs steadily takes no short cut. -/
theorem Steady.smallnumCase (h : s.Steady) : s.smallnumCase j = false := by
  simp [DivCtl.smallnumCase, validE1, h.validFfE1]

/-- A division at work finishes with its last step. -/
theorem At.finish (h : s.At i c) (hj : Undisturbed j) : s.finish j = decide (c = lastCount i) := by
  have hcount : ∀ k : Nat, k < 64 → (s.count == BitVec.ofNat 6 k) = decide (c = k) := by
    intro k hk
    rw [← h.count, beq_eq_decide, decide_eq_decide, BitVec.toNat_eq, BitVec.toNat_ofNat, Nat.mod_eq_of_lt hk]
  rw [DivCtl.finish, h.steady.smallnumCase, hj.flushLower, h.flushLowerFf, h.iterated.holds.remFf, lastCount,
    Bool.false_or, Bool.not_false, Bool.and_true, Bool.and_true]
  cases i.rem with
  | true => exact hcount 33 (by omega)
  | false => exact hcount 32 (by omega)

/-- A step that is not the last takes a digit in. -/
theorem At.next (h : s.At i (c + 1)) (hc : c + 1 < lastCount i) (hj : Undisturbed j) : (s.next j).At i (c + 2) := by
  have hlast : lastCount i ≤ 33 := by
    unfold lastCount
    split_ifs <;> omega
  have hfin : s.finish j = false := by
    rw [h.finish hj]
    exact decide_eq_false (by omega)
  have hne : s.count ≠ 33 := by
    intro heq
    have hcount := h.count
    rw [heq] at hcount
    have h33 : (33 : BitVec 6).toNat = 33 := rfl
    omega
  have hshort := shortqEnable_of_not_valid h.steady.validFfE1
  have hshift : s.shortqShiftFf = 0#6 := by
    rw [shortqShiftFf, h.steady.shortqShiftXx]
    decide
  refine ⟨h.iterated.next (by omega) h.steady hne hj.valid, ⟨?_, ?_, ?_, ?_⟩, ?_, ?_⟩
  · simp only [DivCtl.next, runIn, h.steady.runState, hfin, h.flushLowerFf, Bool.or_true, Bool.not_false, Bool.and_self]
  · simp only [DivCtl.next, hj.valid, Bool.false_and]
  · simp only [DivCtl.next, hshort]
  · simp only [DivCtl.next, hshort, Bool.false_eq_true, if_false]
  · have hcount := h.count
    have hone : (1 : BitVec 6).toNat = 1 := rfl
    simp only [DivCtl.next, countIn, h.steady.runState, hfin, h.flushLowerFf, hshort, hshift, Bool.not_false, Bool.and_self,
      if_true, BitVec.add_zero, BitVec.toNat_add]
    omega
  · simp only [DivCtl.next, hj.flushLower]

/-- What comes out of the registers when no table was used. -/
theorem Holds.out_eq (h : s.Holds i) (hs : s.smallnumCaseFf = false) : s.out =
    if i.rem then if i.dividendNeg then -(s.aFf.extractLsb' 0 32) else s.aFf.extractLsb' 0 32
    else if i.divisor != 0 && (i.dividendNeg ^^ i.divisorNeg) then -s.q else s.q := by
  have hsign : (s.signFf && (s.dividendNegFf ^^ s.divisorNegFf)) =
      (i.divisor != 0 && (i.dividendNeg ^^ i.divisorNeg)) := by
    rw [h.signFf_eq, h.dividendNegFf, divisorNegFf, h.m_eq, DivIn.dividendNeg, DivIn.divisorNeg]
    cases i.unsign <;> cases i.divisor != 0 <;> simp
  rw [out, hsign, h.dividendNeg_eq, hs, h.remFf]
  cases i.rem with
  | true => simp
  | false => simp

/-- The quotient after all digits. -/
theorem Iterated.q_eq (h : s.Iterated i 33) : s.q = BitVec.ofNat 32 (quot i.m i.d 33 33) := by
  apply BitVec.eq_of_toNat_eq
  rw [q, BitVec.extractLsb'_toNat, h.qFf, BitVec.toNat_ofNat, Nat.shiftRight_zero, Nat.mul_mod_left, Nat.zero_add]

/-- The remainder after all digits, if the divisor fitted in the last step. -/
theorem aFf_eq_of_rem {x : BitVec 33} (hx : (x.toNat : Int) = LongDivision.rem i.m i.d 33 33 % 2 ^ 33) :
    x.extractLsb' 0 32 = BitVec.ofNat 32 (LongDivision.rem i.m i.d 33 33) := by
  apply BitVec.eq_of_toNat_eq
  rw [BitVec.extractLsb'_toNat, BitVec.toNat_ofNat, Nat.shiftRight_zero]
  omega

/-- With its last step a division gives its result. -/
theorem At.result (h : s.At i (lastCount i)) (hj : Undisturbed j) : (s.next j).out = i.result := by
  have hholds := h.iterated.holds.next hj.valid
  have hsmall : (s.next j).smallnumCaseFf = false := h.steady.smallnumCase
  rw [hholds.out_eq hsmall, i.result_eq]
  cases hr : i.rem with
  | false =>
    have hlast : lastCount i = 32 := by rw [lastCount, hr, if_neg (by decide)]
    rw [hlast] at h
    have hne : s.count ≠ 33 := by
      intro heq
      have hcount := h.count
      rw [heq] at hcount
      cases hcount
    have hiter : (s.next j).Iterated i 33 := Iterated.next (c := 31) h.iterated (by omega) h.steady hne hj.valid
    simp only [Bool.false_eq_true, if_false, hiter.q_eq]
  | true =>
    have hlast : lastCount i = 33 := by rw [lastCount, hr, if_pos rfl]
    rw [hlast] at h
    have hcount : s.count = 33 := BitVec.eq_of_toNat_eq h.count
    have hmsb := msb_of_kept (by omega) h.iterated.aFf
    have hneg : kept i.m i.d 33 33 < 0 ↔ quot i.m i.d 33 33 % 2 = 0 := kept_neg_iff
    have hlow : (s.next j).aFf.extractLsb' 0 32 = BitVec.ofNat 32 (LongDivision.rem i.m i.d 33 33) := by
      refine aFf_eq_of_rem ?_
      have hrc : s.remCorrect = s.aFf.msb := by
        rw [remCorrect, hcount, h.iterated.holds.remFf, hr]
        rfl
      have hnext : (s.next j).aFf = rvdffs s.aFf.msb s.aIn s.aFf := by
        simp [DivCtl.next, hj.valid, hcount, hrc]
      rw [hnext]
      have hkept := h.iterated.aFf
      unfold kept at hkept
      cases hm : s.aFf.msb with
      | false =>
        -- the divisor fitted, and what is kept is the remainder
        rw [hm, eq_comm, decide_eq_false_iff_not] at hmsb
        have hodd : quot i.m i.d 33 33 % 2 = 1 := by omega
        rw [if_pos hodd] at hkept
        rw [rvdffs_false]
        exact hkept
      | true =>
        -- the divisor is added back
        rw [hm, eq_comm, decide_eq_true_eq] at hmsb
        have heven : ¬quot i.m i.d 33 33 % 2 = 1 := by omega
        rw [if_neg heven] at hkept
        rw [rvdffs_true, h.iterated.holds.aIn_toNat h.steady.runState, hm, Bool.true_or, if_pos rfl]
        have haEff : s.aEff = s.aFf := by rw [aEff, hrc, hm, if_pos rfl]
        rw [haEff]
        omega
    rw [if_pos rfl, if_pos rfl, hlow]

end DivCtl

end SocRV
