import SocRV.Core.DivRun

/-!
# The first cycles of a division

In E1 the divider answers from its table, starts to iterate, or finds from the leading bytes of the operands how many
digits of the quotient are 0.  Skipping them leaves the registers as the iteration would.
-/

namespace SocRV

open LongDivision

namespace DivCtl

variable {s : DivCtl} {i j : DivIn} {c : Nat}

namespace Issued

variable (h : s.Issued i)

include h

/-- The dividend register holds the dividend. -/
theorem q_eq : s.q = i.dividend := by
  have hlt := i.dividend.isLt
  apply BitVec.eq_of_toNat_eq
  rw [q, h.qFf, BitVec.extractLsb'_toNat, Nat.shiftRight_zero, BitVec.toNat_setWidth]
  omega

/-- The remainder is corrected only at the last count. -/
theorem remCorrect : s.remCorrect = false := remCorrect_of_count (by rw [h.count]; decide)

/-- No digits were skipped yet. -/
theorem shortqShiftFf : s.shortqShiftFf = 0#6 := by
  rw [DivCtl.shortqShiftFf, h.shortqShiftXx]
  decide

/-- Only the table finishes an operation in E1. -/
theorem finish (hj : Undisturbed j) : s.finish j = s.smallnumCase j := by
  have h32 : (s.count == 32) = false := by rw [h.count]; decide
  have h33 : (s.count == 33) = false := by rw [h.count]; decide
  rw [DivCtl.finish, h32, h33, hj.flushLower, h.flushLowerFf]
  simp

/-- Without a digit skipped the first step takes in the digit 0 above the dividend. -/
theorem next_at (hj : Undisturbed j) (hsmall : s.smallnumCase j = false) (hshort : s.shortqEnable = false) :
    (s.next j).At i 1 := by
  have hfin := h.finish hj
  rw [hsmall] at hfin
  have hdigit : digit i.d 33 0 = 0 := by
    have hlt := i.d_lt
    unfold digit
    rw [Nat.div_eq_of_lt hlt]
  have hkept : kept i.m i.d 33 1 = -(i.m : Int) := by
    have hrem : LongDivision.rem i.m i.d 33 0 = 0 := rfl
    rw [kept_succ, hrem, hdigit]
    omega
  have haEff : s.aEff = 0#33 := by
    rw [aEff, h.remCorrect, if_neg (by decide), h.shortqEnableFf, if_neg (by decide), h.aFf, h.qFf]
    apply BitVec.eq_of_toNat_eq
    have hlt := i.dividend.isLt
    have hlow := ((BitVec.zeroExtend 33 i.dividend).extractLsb' 32 1).isLt
    rw [BitVec.toNat_append, ← Nat.shiftLeft_add_eq_or_of_lt hlow, BitVec.extractLsb'_toNat, BitVec.extractLsb'_toNat,
      BitVec.toNat_setWidth, Nat.shiftRight_eq_div_pow]
    simp only [BitVec.toNat_ofNat]
    omega
  have haIn : (s.aIn.toNat : Int) = kept i.m i.d 33 1 % 2 ^ 33 := by
    have hpos : s.aFf.msb = false := by rw [h.aFf]; decide
    rw [h.holds.aIn_toNat h.runState, h.remCorrect, hpos, haEff, hkept, Bool.or_false, if_neg (by decide)]
    simp only [BitVec.toNat_ofNat]
    omega
  have hquot : quot i.m i.d 33 1 = (!s.aIn.msb).toNat := by
    have hq0 : quot i.m i.d 33 0 = 0 := rfl
    have hq : quot i.m i.d 33 1 = 2 * quot i.m i.d 33 0 + (!s.aIn.msb).toNat := quot_of_kept (by omega) haIn
    rw [hq0] at hq
    omega
  refine ⟨⟨h.holds.next hj.valid, ?_, ?_⟩, ⟨?_, ?_, ?_, ?_⟩, ?_, ?_⟩
  · have ha : (s.next j).aFf = s.aIn := by
      simp [DivCtl.next, hj.valid, h.runState, hshort, h.count]
    rw [ha]
    exact haIn
  · have hq : (s.next j).qFf = (s.dividendEff ++ BitVec.ofBool !s.aIn.msb) <<< 0 := by
      simp [DivCtl.next, hj.valid, h.runState, hshort, qIn, h.validFfE1, h.shortqShiftFf]
    have hd := h.holds.dividendEff_toNat h.q_eq
    have hlt := i.d_lt
    have hbit := (BitVec.ofBool !s.aIn.msb).isLt
    rw [hq, BitVec.shiftLeft_zero, BitVec.toNat_append, ← Nat.shiftLeft_add_eq_or_of_lt hbit, Nat.shiftLeft_eq, hd,
      BitVec.toNat_ofBool, hquot]
    omega
  · simp only [DivCtl.next, runIn, h.runState, hfin, h.flushLowerFf, Bool.or_true, Bool.not_false, Bool.and_self]
  · simp only [DivCtl.next, hj.valid, Bool.false_and]
  · simp only [DivCtl.next, hshort]
  · simp only [DivCtl.next, hshort, Bool.false_eq_true, if_false]
  · simp only [DivCtl.next, countIn, h.runState, hfin, h.flushLowerFf, hshort, h.shortqShiftFf, h.count, Bool.not_false,
      Bool.and_self, if_true]
    rfl
  · simp only [DivCtl.next, hj.flushLower]

end Issued

/-! ## Digits that are skipped -/

/-- What the leading bytes say of the magnitude of the dividend. -/
theorem Issued.d_lt_of_aCls (h : s.Issued i) :
    (s.aCls.1 = false → i.d < 2 ^ 24) ∧ (s.aCls.1 = false → s.aCls.2.1 = false → i.d < 2 ^ 16) ∧
      (s.aCls.1 = false → s.aCls.2.1 = false → s.aCls.2.2 = false → i.d < 2 ^ 8) := by
  have hlt := i.dividend.isLt
  have hsign : s.shortDividendSign = i.dividendNeg := by
    rw [shortDividendSign, h.q_eq, h.holds.signFf_eq]
    rfl
  rw [aCls, hsign, h.q_eq, DivIn.d]
  cases hneg : i.dividendNeg with
  | false =>
    simp only [Bool.false_eq_true, if_false, bne_eq_false_iff_eq, BitVec.toNat_eq, BitVec.extractLsb'_toNat,
      BitVec.toNat_ofNat, Nat.shiftRight_eq_div_pow]
    omega
  | true =>
    simp only [if_true, bne_eq_false_iff_eq, BitVec.toNat_eq, BitVec.extractLsb'_toNat, BitVec.toNat_ofNat,
      Nat.shiftRight_eq_div_pow, BitVec.toNat_neg]
    omega

/-- What the leading bytes say of the magnitude of the divisor. -/
theorem Holds.m_ge_of_bCls (h : s.Holds i) :
    (s.bCls.1 = true → 2 ^ 24 ≤ i.m) ∧ (s.bCls.2.1 = true → 2 ^ 16 ≤ i.m) ∧ (s.bCls.2.2 = true → 2 ^ 8 ≤ i.m) := by
  have hlt := i.divisor.isLt
  have hsign : s.mFf.msb = i.divisorNeg := by
    have hm := h.mFf_toNat
    have hbound := i.m_lt
    have hpos : i.divisorNeg = true → 0 < i.m := i.m_pos_of_neg
    rw [BitVec.msb_eq_decide, hm]
    cases hneg : i.divisorNeg with
    | false => exact decide_eq_false (by rw [if_neg (by decide)]; omega)
    | true =>
      have hpos := hpos hneg
      exact decide_eq_true (by rw [if_pos rfl]; omega)
  rw [bCls, hsign, h.m_eq, DivIn.m]
  cases hneg : i.divisorNeg with
  | false =>
    simp only [Bool.false_eq_true, if_false, bne_iff_ne, ne_eq, BitVec.toNat_eq, BitVec.extractLsb'_toNat,
      BitVec.toNat_ofNat, Nat.shiftRight_eq_div_pow]
    omega
  | true =>
    have hpos := i.m_pos_of_neg hneg
    rw [DivIn.m, hneg, if_pos rfl, BitVec.toNat_neg] at hpos
    simp only [if_true, bne_iff_ne, ne_eq, BitVec.toNat_eq, BitVec.extractLsb'_toNat, BitVec.toNat_ofNat,
      Nat.shiftRight_eq_div_pow, BitVec.toNat_neg]
    omega

/-- The number of the highest byte that is said to count. -/
def topByte : Bool × Bool × Bool → Nat
  | (true, _, _) => 3
  | (false, true, _) => 2
  | (false, false, true) => 1
  | (false, false, false) => 0

/-- How many digits are skipped goes by the distance of the highest bytes. -/
theorem shortqRaw_eq (s : DivCtl) : s.shortqRaw =
    if topByte s.aCls < topByte s.bCls then 0b1000 else if topByte s.aCls = topByte s.bCls then 0b0100
    else if topByte s.aCls = topByte s.bCls + 1 then 0b0010 else if topByte s.aCls = topByte s.bCls + 2 then 0b0001
    else 0 := by
  unfold shortqRaw
  rcases s.aCls with ⟨_ | _, _ | _, _ | _⟩ <;> rcases s.bCls with ⟨_ | _, _ | _, _ | _⟩ <;> rfl

/-- The dividend is as small as its highest byte that counts says. -/
theorem Issued.d_lt_of_topByte (h : s.Issued i) : topByte s.aCls ≤ 3 ∧ i.d < 2 ^ (8 * (topByte s.aCls + 1)) := by
  have hlt := i.d_lt
  obtain ⟨h2, h1, h0⟩ := h.d_lt_of_aCls
  rcases hc : s.aCls with ⟨_ | _, _ | _, _ | _⟩ <;> simp only [hc, forall_const, reduceCtorEq] at h2 h1 h0 <;>
    simp only [topByte] <;> omega

/-- The divisor is as large as its highest byte that counts says. -/
theorem Holds.m_ge_of_topByte (h : s.Holds i) (hm : 0 < i.m) :
    topByte s.bCls ≤ 3 ∧ 2 ^ (8 * topByte s.bCls) ≤ i.m := by
  obtain ⟨h2, h1, h0⟩ := h.m_ge_of_bCls
  rcases hc : s.bCls with ⟨_ | _, _ | _, _ | _⟩ <;> simp only [hc, forall_const, reduceCtorEq] at h2 h1 h0 <;>
    simp only [topByte] <;> omega

/-- The numbers of digits that can be skipped, and the code of each. -/
def IsSkip (raw : BitVec 4) (k : Nat) : Prop :=
  (raw = 0b1000 ∧ k = 31) ∨ (raw = 0b0100 ∧ k = 24) ∨ (raw = 0b0010 ∧ k = 16) ∨ (raw = 0b0001 ∧ k = 8)

/-- What is skipped is 0: the dividend without the digits left to take in is less than the divisor. -/
theorem Issued.skip (h : s.Issued i) (he : s.shortqEnable = true) :
    ∃ k, IsSkip s.shortqRaw k ∧ i.d / 2 ^ (32 - k) < i.m := by
  simp only [shortqEnable, Bool.and_eq_true, bne_iff_ne, ne_eq] at he
  obtain ⟨⟨-, hm0⟩, hraw⟩ := he
  have hm : 0 < i.m := by
    rw [h.holds.m_eq] at hm0
    exact Nat.pos_of_ne_zero fun h0 => hm0 (i.m_eq_zero_iff.mp h0)
  obtain ⟨ha, hd⟩ := h.d_lt_of_topByte
  obtain ⟨hb, hmge⟩ := h.holds.m_ge_of_topByte hm
  rw [shortqRaw_eq] at hraw ⊢
  generalize topByte s.aCls = a at ha hd hraw ⊢
  generalize topByte s.bCls = b at hb hmge hraw ⊢
  obtain rfl | rfl | rfl | rfl : a = 0 ∨ a = 1 ∨ a = 2 ∨ a = 3 := by omega
  all_goals
    obtain rfl | rfl | rfl | rfl : b = 0 ∨ b = 1 ∨ b = 2 ∨ b = 3 := by omega
    all_goals
      first
      | exact absurd rfl hraw
      | exact ⟨31, Or.inl ⟨rfl, rfl⟩, by omega⟩
      | exact ⟨24, Or.inr (Or.inl ⟨rfl, rfl⟩), by omega⟩
      | exact ⟨16, Or.inr (Or.inr (Or.inl ⟨rfl, rfl⟩)), by omega⟩
      | exact ⟨8, Or.inr (Or.inr (Or.inr ⟨rfl, rfl⟩)), by omega⟩

/-- The cycle after `k` digits were found to be 0. -/
structure Skipping (s : DivCtl) (i : DivIn) (k : Nat) : Prop where
  holds : s.Holds i
  runState : s.runState = true
  validFfE1 : s.validFfE1 = false
  flushLowerFf : s.flushLowerFf = false
  shortqEnableFf : s.shortqEnableFf = true
  shift : s.shortqShiftFf = BitVec.ofNat 6 k
  size : 1 ≤ k ∧ k ≤ 31
  count : s.count = 0#6
  aFf : s.aFf = 0#33
  qFf : s.qFf = i.dividend.zeroExtend 33
  fits : i.d / 2 ^ (32 - k) < i.m

/-- With digits to skip the registers wait. -/
theorem Issued.next_skipping (h : s.Issued i) (hj : Undisturbed j) (hsmall : s.smallnumCase j = false)
    (he : s.shortqEnable = true) : ∃ k, (s.next j).Skipping i k := by
  obtain ⟨k, hk, hfits⟩ := h.skip he
  have hfin := h.finish hj
  rw [hsmall] at hfin
  have hshift : (s.next j).shortqShiftFf = BitVec.ofNat 6 k ∧ 1 ≤ k ∧ k ≤ 31 := by
    have hxx : (s.next j).shortqShiftXx = s.shortqRaw := by simp only [DivCtl.next, he, if_true]
    rw [DivCtl.shortqShiftFf, hxx]
    rcases hk with ⟨hraw, rfl⟩ | ⟨hraw, rfl⟩ | ⟨hraw, rfl⟩ | ⟨hraw, rfl⟩ <;> rw [hraw] <;> decide
  refine ⟨k, h.holds.next hj.valid, ?_, ?_, ?_, ?_, hshift.1, hshift.2, ?_, ?_, ?_, hfits⟩
  · simp only [DivCtl.next, runIn, h.runState, hfin, h.flushLowerFf, Bool.or_true, Bool.not_false, Bool.and_self]
  · simp only [DivCtl.next, hj.valid, Bool.false_and]
  · simp only [DivCtl.next, hj.flushLower]
  · simp only [DivCtl.next, he]
  · simp only [DivCtl.next, countIn, he, Bool.not_true, Bool.and_false, Bool.false_eq_true, if_false]
    rfl
  · simp only [DivCtl.next, hj.valid, he, h.remCorrect, Bool.not_true, Bool.and_false, Bool.false_and, Bool.or_false,
      rvdffs_false, h.aFf]
  · simp only [DivCtl.next, hj.valid, he, Bool.not_true, Bool.and_false, Bool.or_false, rvdffs_false, h.qFf]

namespace Skipping

variable {k : Nat} (h : s.Skipping i k)

include h

theorem q_eq : s.q = i.dividend := by
  have hlt := i.dividend.isLt
  apply BitVec.eq_of_toNat_eq
  rw [q, h.qFf, BitVec.extractLsb'_toNat, Nat.shiftRight_zero, BitVec.toNat_setWidth]
  omega

/-- The digits that are taken in at once. -/
theorem aEff_toNat : s.aEff.toNat = i.d / 2 ^ (32 - k) := by
  have hrem : s.remCorrect = false := remCorrect_of_count (by rw [h.count]; decide)
  have hd := h.holds.dividendEff_toNat h.q_eq
  have hlt := i.d_lt
  obtain ⟨-, hk⟩ := h.size
  have hshift : s.shortqShiftFf.toNat = k := by
    rw [h.shift, BitVec.toNat_ofNat]
    omega
  have hpow : (2 : Nat) ^ 32 = 2 ^ k * 2 ^ (32 - k) := by
    rw [← Nat.pow_add]
    congr 1
    omega
  have hbound : i.d * 2 ^ k < 2 ^ 65 :=
    calc i.d * 2 ^ k ≤ 2 ^ 32 * 2 ^ 31 :=
          Nat.mul_le_mul (Nat.le_of_lt hlt) (Nat.pow_le_pow_right (by omega) hk)
      _ < 2 ^ 65 := by decide
  have hsmall : i.d / 2 ^ (32 - k) < 2 ^ 33 :=
    Nat.lt_of_le_of_lt (Nat.div_le_self _ _) (Nat.lt_trans hlt (by decide))
  have hdiv : i.d * 2 ^ k / 2 ^ 32 = i.d / 2 ^ (32 - k) := by
    rw [hpow, Nat.mul_comm, Nat.mul_div_mul_left _ _ (Nat.two_pow_pos k)]
  rw [aEff, hrem, if_neg (by decide), h.shortqEnableFf, if_pos rfl, BitVec.extractLsb'_toNat, BitVec.toNat_shiftLeft,
    BitVec.toNat_setWidth, hd, hshift, Nat.shiftRight_eq_div_pow, Nat.shiftLeft_eq,
    Nat.mod_eq_of_lt (Nat.lt_trans hlt (by decide)), Nat.mod_eq_of_lt hbound, hdiv, Nat.mod_eq_of_lt hsmall]

/-- The quotient so far is 0, and what is kept is negative. -/
theorem kept_eq : quot i.m i.d 33 (k + 1) = 0 ∧
    kept i.m i.d 33 (k + 1) = (i.d / 2 ^ (32 - k) : Nat) - (i.m : Int) := by
  obtain ⟨-, hk⟩ := h.size
  have hsub : 33 - (k + 1) = 32 - k := by omega
  obtain ⟨hq, hr⟩ := of_prefix_lt (m := i.m) (show k + 1 ≤ 33 by omega) (d_lt_33 i) (by rw [hsub]; exact h.fits)
  rw [hsub] at hr
  exact ⟨hq, by rw [kept, hq, if_neg (by decide), hr]⟩

/-- While digits are skipped nothing finishes. -/
theorem finish (hj : Undisturbed j) : s.finish j = false := by
  have h32 : (s.count == 32) = false := by rw [h.count]; decide
  have h33 : (s.count == 33) = false := by rw [h.count]; decide
  have hsmall : s.smallnumCase j = false := by simp [smallnumCase, validE1, h.validFfE1]
  rw [DivCtl.finish, h32, h33, hsmall, hj.flushLower]
  simp

/-- The registers are then as if the iteration had come so far. -/
theorem next_at (hj : Undisturbed j) : (s.next j).At i (k + 1) := by
  have hfin := h.finish hj
  have hshort := shortqEnable_of_not_valid h.validFfE1
  have hrem : s.remCorrect = false := remCorrect_of_count (by rw [h.count]; decide)
  obtain ⟨hk1, hk⟩ := h.size
  obtain ⟨hquot, hkept⟩ := h.kept_eq
  have hfits := h.fits
  have hshift : s.shortqShiftFf.toNat = k := by
    rw [h.shift, BitVec.toNat_ofNat]
    omega
  have haIn : (s.aIn.toNat : Int) = kept i.m i.d 33 (k + 1) % 2 ^ 33 := by
    have hpos : s.aFf.msb = false := by rw [h.aFf]; decide
    rw [h.holds.aIn_toNat h.runState, hrem, hpos, h.aEff_toNat, hkept, Bool.or_false, if_neg (by decide)]
    rfl
  have hmsb : s.aIn.msb = true := by
    rw [msb_of_kept (by omega) haIn, hkept]
    exact decide_eq_true (by omega)
  refine ⟨⟨h.holds.next hj.valid, ?_, ?_⟩, ⟨?_, ?_, ?_, ?_⟩, ?_, ?_⟩
  · have ha : (s.next j).aFf = s.aIn := by
      simp [DivCtl.next, hj.valid, h.runState, hshort, h.count]
    rw [ha]
    exact haIn
  · have hq : (s.next j).qFf = (s.dividendEff ++ BitVec.ofBool false) <<< k := by
      simp [DivCtl.next, hj.valid, h.runState, hshort, qIn, h.shortqEnableFf, hmsb, hshift]
    have hd := h.holds.dividendEff_toNat h.q_eq
    have hbit := (BitVec.ofBool false).isLt
    have hpow : 2 ^ (k + 1) = 2 ^ 1 * 2 ^ k := Nat.pow_succ'
    rw [hq, BitVec.toNat_shiftLeft, BitVec.toNat_append, ← Nat.shiftLeft_add_eq_or_of_lt hbit, Nat.shiftLeft_eq,
      Nat.shiftLeft_eq, hd, BitVec.toNat_ofBool, Bool.toNat_false, Nat.add_zero, hquot, Nat.add_zero, Nat.mul_assoc,
      hpow]
  · simp only [DivCtl.next, runIn, h.runState, hfin, h.flushLowerFf, Bool.or_true, Bool.not_false, Bool.and_self]
  · simp only [DivCtl.next, hj.valid, Bool.false_and]
  · simp only [DivCtl.next, hshort]
  · simp only [DivCtl.next, hshort, Bool.false_eq_true, if_false]
  · have hone : (1 : BitVec 6).toNat = 1 := rfl
    simp only [DivCtl.next, countIn, h.runState, hfin, h.flushLowerFf, hshort, h.count, Bool.not_false, Bool.and_self,
      if_true, BitVec.zero_add, BitVec.toNat_add, hshift, hone]
    omega
  · simp only [DivCtl.next, hj.flushLower]

end Skipping

/-! ## The table of small numbers -/

/-- The table, as a function of its two small operands. -/
def smallnumTable (a b : BitVec 4) : BitVec 4 :=
  BitVec.ofBool (smallnum3 a.getLsbD b.getLsbD) ++ BitVec.ofBool (smallnum2 a.getLsbD b.getLsbD) ++
    BitVec.ofBool (smallnum1 a.getLsbD b.getLsbD) ++ BitVec.ofBool (smallnum0 a.getLsbD b.getLsbD)

/-- It holds the quotients. -/
theorem smallnumTable_eq : ∀ a b : BitVec 4, b ≠ 0 → smallnumTable a b = a / b := by
  decide +kernel

/-- Of 0 it holds 0. -/
theorem smallnumTable_zero : ∀ b : BitVec 4, smallnumTable 0 b = 0 := by
  decide +kernel

/-- The short cut reads the table at the low digits of dividend and divisor. -/
theorem smallnum_eq (s : DivCtl) :
    s.smallnum = smallnumTable (s.qFf.extractLsb' 0 4) (s.mFf.extractLsb' 0 4) := by
  simp [smallnum, smallnumTable, smallnum3, smallnum2, smallnum1, smallnum0]

/-- What the table answers is the result. -/
theorem Issued.result (h : s.Issued i) (hj : Undisturbed j) (hsmall : s.smallnumCase j = true) :
    (s.next j).out = i.result := by
  have hcase : (s.next j).smallnumCaseFf = true := hsmall
  have hholds := h.holds.next hj.valid
  simp only [smallnumCase, Bool.or_eq_true, Bool.and_eq_true, beq_iff_eq, bne_iff_ne, ne_eq, Bool.not_eq_true',
    h.q_eq, h.holds.m_eq, h.holds.remFf] at hsmall
  have hrem : i.rem = false := by
    rcases hsmall with hsmall | hsmall
    · exact hsmall.1.1.2
    · exact hsmall.1.1.2
  have h0 : i.divisor ≠ 0 := by
    rcases hsmall with hsmall | hsmall
    · exact hsmall.1.1.1.2
    · exact hsmall.1.1.1.2
  have hout : (s.next j).out = s.smallnum.zeroExtend 32 := by
    rw [out, hcase, hholds.remFf, hrem]
    simp [DivCtl.next]
  have hlow : s.qFf.extractLsb' 0 4 = i.dividend.extractLsb' 0 4 ∧ s.mFf.extractLsb' 0 4 = i.divisor.extractLsb' 0 4 := by
    rw [← h.q_eq, ← h.holds.m_eq]
    constructor <;> (apply BitVec.eq_of_toNat_eq; simp only [q, m, BitVec.extractLsb'_toNat, Nat.shiftRight_zero]; omega)
  rw [hout, smallnum_eq, hlow.1, hlow.2, DivIn.result_quotient hrem h0]
  have hdlt := i.dividend.isLt
  have hmlt := i.divisor.isLt
  rcases hsmall with ⟨⟨⟨⟨⟨hd, hm⟩, -⟩, -⟩, -⟩, -⟩ | ⟨⟨⟨⟨hd, -⟩, -⟩, -⟩, -⟩
  · -- both operands are small, so neither is negated
    rw [BitVec.toNat_eq, BitVec.extractLsb'_toNat, Nat.shiftRight_eq_div_pow, BitVec.toNat_ofNat] at hd hm
    have hdneg : i.dividendNeg = false := by
      have hmsb : i.dividend.msb = false := by
        rw [BitVec.msb_eq_decide]
        exact decide_eq_false (by omega)
      rw [DivIn.dividendNeg, hmsb, Bool.and_false]
    have hmneg : i.divisorNeg = false := by
      have hmsb : i.divisor.msb = false := by
        rw [BitVec.msb_eq_decide]
        exact decide_eq_false (by omega)
      rw [DivIn.divisorNeg, hmsb, Bool.and_false]
    have hne : i.divisor.extractLsb' 0 4 ≠ 0 := by
      rw [ne_eq, BitVec.toNat_eq] at h0 ⊢
      rw [BitVec.extractLsb'_toNat, Nat.shiftRight_zero]
      have hz : (0 : BitVec 32).toNat = 0 := rfl
      have hz4 : (0 : BitVec 4).toNat = 0 := rfl
      omega
    rw [smallnumTable_eq _ _ hne, hdneg, hmneg, Bool.xor_self, if_neg (by decide), DivIn.d, DivIn.m, hdneg, hmneg,
      if_neg (by decide), if_neg (by decide)]
    apply BitVec.eq_of_toNat_eq
    have hquot : i.dividend.toNat / i.divisor.toNat ≤ i.dividend.toNat := Nat.div_le_self _ _
    have hd4 : i.dividend.toNat % 2 ^ 4 = i.dividend.toNat := by omega
    have hm4 : i.divisor.toNat % 2 ^ 4 = i.divisor.toNat := by omega
    rw [BitVec.toNat_setWidth, BitVec.toNat_udiv, BitVec.extractLsb'_toNat, BitVec.extractLsb'_toNat, BitVec.toNat_ofNat,
      Nat.shiftRight_zero, Nat.shiftRight_zero, hd4, hm4]
  · -- the dividend is 0
    have hzero : i.d = 0 := by
      rw [DivIn.d, hd]
      split_ifs <;> rfl
    have hlow0 : i.dividend.extractLsb' 0 4 = 0 := by rw [hd]; rfl
    rw [hlow0, smallnumTable_zero, hzero, Nat.zero_div]
    split_ifs <;> rfl

end DivCtl

end SocRV
