import Mathlib.Algebra.Group.Int.Defs
import SocRV.Core.Primitives
import SocRV.Lib.Machine

/-!
# The multiplier

`exu_mul_ctl` multiplies in three stages.  Each stage is entered by an operation, or by whatever the clock override lets
in behind none, and all of them hold while the pipeline is frozen.
-/

namespace SocRV

/-! ## The module -/

/-- `mul_pkt_t`. -/
structure MulPkt where
  valid : Bool := false
  rs1Sign : Bool := false
  rs2Sign : Bool := false
  low : Bool := false
  loadMulRs1BypassE1 : Bool := false
  loadMulRs2BypassE1 : Bool := false
  deriving DecidableEq, Repr

/-- The registers of `exu_mul_ctl`. -/
structure MulCtl where
  validE1 : Bool := false
  rs1SignE1 : Bool := false
  rs2SignE1 : Bool := false
  lowE1 : Bool := false
  loadMulRs1BypassE1 : Bool := false
  loadMulRs2BypassE1 : Bool := false
  aFfE1 : BitVec 32 := 0#32
  bFfE1 : BitVec 32 := 0#32
  validE2 : Bool := false
  lowE2 : Bool := false
  aFfE2 : BitVec 33 := 0#33
  bFfE2 : BitVec 33 := 0#33
  lowE3 : Bool := false
  prodE3 : BitVec 64 := 0#64

/-- The ports of `exu_mul_ctl`. -/
structure MulIn where
  a : BitVec 32 := 0#32
  b : BitVec 32 := 0#32
  lsuResultDc3 : BitVec 32 := 0#32
  freeze : Bool := false
  clkOverride : Bool := false
  mp : MulPkt := {}

namespace MulCtl

variable (s : MulCtl) (i : MulIn)

/-- `mul_c1_e1_clken`. -/
def mulC1E1Clken : Bool := (i.mp.valid || i.clkOverride) && !i.freeze

/-- `mul_c1_e2_clken`. -/
def mulC1E2Clken : Bool := (s.validE1 || i.clkOverride) && !i.freeze

/-- `mul_c1_e3_clken`. -/
def mulC1E3Clken : Bool := (s.validE2 || i.clkOverride) && !i.freeze

/-- `a_e1`. -/
def aE1 : BitVec 32 := if s.loadMulRs1BypassE1 then i.lsuResultDc3 else s.aFfE1

/-- `b_e1`. -/
def bE1 : BitVec 32 := if s.loadMulRs2BypassE1 then i.lsuResultDc3 else s.bFfE1

/-- `rs1_neg_e1`. -/
def rs1NegE1 : Bool := s.rs1SignE1 && (s.aE1 i).getLsbD 31

/-- `rs2_neg_e1`. -/
def rs2NegE1 : Bool := s.rs2SignE1 && (s.bE1 i).getLsbD 31

/-- `prod_e2`: both factors are signed, so they are sign-extended to the width of the product. -/
def prodE2 : BitVec 66 := s.aFfE2.signExtend 66 * s.bFfE2.signExtend 66

/-- `out`. -/
def out : BitVec 32 := if s.lowE3 then s.prodE3.extractLsb' 0 32 else s.prodE3.extractLsb' 32 32

/-- The registers after a core cycle. -/
def next : MulCtl where
  validE1 := rvdffs (!i.freeze) i.mp.valid s.validE1
  rs1SignE1 := rvdffs (mulC1E1Clken i) i.mp.rs1Sign s.rs1SignE1
  rs2SignE1 := rvdffs (mulC1E1Clken i) i.mp.rs2Sign s.rs2SignE1
  lowE1 := rvdffs (mulC1E1Clken i) i.mp.low s.lowE1
  loadMulRs1BypassE1 := rvdffs (mulC1E1Clken i) i.mp.loadMulRs1BypassE1 s.loadMulRs1BypassE1
  loadMulRs2BypassE1 := rvdffs (mulC1E1Clken i) i.mp.loadMulRs2BypassE1 s.loadMulRs2BypassE1
  aFfE1 := rvdffs (mulC1E1Clken i) i.a s.aFfE1
  bFfE1 := rvdffs (mulC1E1Clken i) i.b s.bFfE1
  validE2 := rvdffs (!i.freeze) s.validE1 s.validE2
  lowE2 := rvdffs (s.mulC1E2Clken i) s.lowE1 s.lowE2
  aFfE2 := rvdffs (s.mulC1E2Clken i) (BitVec.ofBool (s.rs1NegE1 i) ++ s.aE1 i) s.aFfE2
  bFfE2 := rvdffs (s.mulC1E2Clken i) (BitVec.ofBool (s.rs2NegE1 i) ++ s.bE1 i) s.bFfE2
  lowE3 := rvdffs (s.mulC1E3Clken i) s.lowE2 s.lowE3
  prodE3 := rvdffs (s.mulC1E3Clken i) (s.prodE2.extractLsb' 0 64) s.prodE3

end MulCtl

/-! ## Products -/

/-- The value of a word, signed or unsigned. -/
def wordValue (sign : Bool) (x : BitVec 32) : Int := if sign then x.toInt else x.toNat

/-- The 64-bit product of two words. -/
def mulProduct (rs1Sign rs2Sign : Bool) (a b : BitVec 32) : BitVec 64 :=
  BitVec.ofInt 64 (wordValue rs1Sign a * wordValue rs2Sign b)

/-- The half of the product that an operation asks for. -/
def MulPkt.result (p : MulPkt) (a b : BitVec 32) : BitVec 32 :=
  if p.low then (mulProduct p.rs1Sign p.rs2Sign a b).extractLsb' 0 32
  else (mulProduct p.rs1Sign p.rs2Sign a b).extractLsb' 32 32

/-- The bit put in front of a word makes it a signed number of its value. -/
theorem toInt_append_neg (sign : Bool) (x : BitVec 32) :
    (BitVec.ofBool (sign && x.getLsbD 31) ++ x).toInt = wordValue sign x := by
  have hmsb : x.getLsbD 31 = x.msb := rfl
  unfold wordValue
  rw [hmsb, BitVec.toInt_append]
  cases sign with
  | false =>
    rw [Bool.false_and]
    simp
  | true =>
    rw [Bool.true_and, if_pos rfl, BitVec.toInt_eq_msb_cond]
    cases x.msb with
    | false => simp
    | true =>
      simp
      omega

/-- The low bits of the signed product. -/
theorem extract_mul_signExtend (x y : BitVec 33) :
    (x.signExtend 66 * y.signExtend 66).extractLsb' 0 64 = BitVec.ofInt 64 (x.toInt * y.toInt) := by
  have hx : (x.signExtend 66).toInt = x.toInt := BitVec.toInt_signExtend_of_le (by decide)
  have hy : (y.signExtend 66).toInt = y.toInt := BitVec.toInt_signExtend_of_le (by decide)
  have hmul : x.signExtend 66 * y.signExtend 66 = BitVec.ofInt 66 (x.toInt * y.toInt) := by
    rw [BitVec.ofInt_mul, ← hx, ← hy, BitVec.ofInt_toInt, BitVec.ofInt_toInt]
  rw [hmul]
  apply BitVec.eq_of_toNat_eq
  rw [BitVec.extractLsb'_toNat, Nat.shiftRight_zero, BitVec.toNat_ofInt, BitVec.toNat_ofInt]
  omega

/-! ## Stages -/

/-- The first operand of an operation that is issued with `i` and whose load has the value `load`. -/
def MulIn.operandA (i : MulIn) (load : BitVec 32) : BitVec 32 := if i.mp.loadMulRs1BypassE1 then load else i.a

@[inherit_doc MulIn.operandA]
def MulIn.operandB (i : MulIn) (load : BitVec 32) : BitVec 32 := if i.mp.loadMulRs2BypassE1 then load else i.b

namespace MulCtl

/-- The operation that was issued with `i` is in E1. -/
structure InE1 (i : MulIn) (s : MulCtl) : Prop where
  valid : s.validE1 = true
  rs1Sign : s.rs1SignE1 = i.mp.rs1Sign
  rs2Sign : s.rs2SignE1 = i.mp.rs2Sign
  low : s.lowE1 = i.mp.low
  rs1Bypass : s.loadMulRs1BypassE1 = i.mp.loadMulRs1BypassE1
  rs2Bypass : s.loadMulRs2BypassE1 = i.mp.loadMulRs2BypassE1
  a : s.aFfE1 = i.a
  b : s.bFfE1 = i.b

/-- The operation of `p` with the operands `x` and `y` is in E2. -/
structure InE2 (p : MulPkt) (x y : BitVec 32) (s : MulCtl) : Prop where
  valid : s.validE2 = true
  low : s.lowE2 = p.low
  a : s.aFfE2 = BitVec.ofBool (p.rs1Sign && x.getLsbD 31) ++ x
  b : s.bFfE2 = BitVec.ofBool (p.rs2Sign && y.getLsbD 31) ++ y

/-- The operation of `p` with the operands `x` and `y` is in E3. -/
structure InE3 (p : MulPkt) (x y : BitVec 32) (s : MulCtl) : Prop where
  low : s.lowE3 = p.low
  prod : s.prodE3 = mulProduct p.rs1Sign p.rs2Sign x y

variable {s : MulCtl} {i j : MulIn} {p : MulPkt} {x y : BitVec 32}

/-- The registers of a frozen pipeline keep their values. -/
theorem next_of_freeze (h : i.freeze = true) : s.next i = s := by
  have h1 : mulC1E1Clken i = false := by
    unfold mulC1E1Clken
    rw [h, Bool.not_true, Bool.and_false]
  have h2 : s.mulC1E2Clken i = false := by
    unfold mulC1E2Clken
    rw [h, Bool.not_true, Bool.and_false]
  have h3 : s.mulC1E3Clken i = false := by
    unfold mulC1E3Clken
    rw [h, Bool.not_true, Bool.and_false]
  unfold next
  rw [h1, h2, h3, h]
  rfl

/-- An operation is issued. -/
theorem inE1_next (s : MulCtl) (hv : i.mp.valid = true) (hf : i.freeze = false) : InE1 i (s.next i) := by
  have hen : mulC1E1Clken i = true := by
    unfold mulC1E1Clken
    rw [hv, hf]
    rfl
  unfold next
  rw [hen, hf, hv]
  exact ⟨rfl, rfl, rfl, rfl, rfl, rfl, rfl, rfl⟩

/-- An operation leaves E1 with the operand that is bypassed in that cycle. -/
theorem InE1.next (h : InE1 i s) (hf : j.freeze = false) :
    InE2 i.mp (i.operandA j.lsuResultDc3) (i.operandB j.lsuResultDc3) (s.next j) := by
  have hen : s.mulC1E2Clken j = true := by
    unfold mulC1E2Clken
    rw [h.valid, hf]
    rfl
  have ha : s.aE1 j = i.operandA j.lsuResultDc3 := by
    unfold aE1 MulIn.operandA
    rw [h.rs1Bypass, h.a]
  have hb : s.bE1 j = i.operandB j.lsuResultDc3 := by
    unfold bE1 MulIn.operandB
    rw [h.rs2Bypass, h.b]
  refine ⟨?_, ?_, ?_, ?_⟩
  · show rvdffs (!j.freeze) s.validE1 s.validE2 = true
    rw [hf, h.valid]
    rfl
  · show rvdffs (s.mulC1E2Clken j) s.lowE1 s.lowE2 = i.mp.low
    rw [hen, h.low]
    rfl
  · show rvdffs (s.mulC1E2Clken j) (BitVec.ofBool (s.rs1NegE1 j) ++ s.aE1 j) s.aFfE2 = _
    rw [hen, rs1NegE1, h.rs1Sign, ha]
    rfl
  · show rvdffs (s.mulC1E2Clken j) (BitVec.ofBool (s.rs2NegE1 j) ++ s.bE1 j) s.bFfE2 = _
    rw [hen, rs2NegE1, h.rs2Sign, hb]
    rfl

/-- An operation leaves E2 with its product. -/
theorem InE2.next (h : InE2 p x y s) (hf : j.freeze = false) : InE3 p x y (s.next j) := by
  have hen : s.mulC1E3Clken j = true := by
    unfold mulC1E3Clken
    rw [h.valid, hf]
    rfl
  refine ⟨?_, ?_⟩
  · show rvdffs (s.mulC1E3Clken j) s.lowE2 s.lowE3 = p.low
    rw [hen, h.low]
    rfl
  · show rvdffs (s.mulC1E3Clken j) (s.prodE2.extractLsb' 0 64) s.prodE3 = _
    rw [hen, rvdffs_true, prodE2, extract_mul_signExtend, h.a, h.b, toInt_append_neg, toInt_append_neg]
    rfl

/-- In E3 the result is on the output. -/
theorem InE3.out (h : InE3 p x y s) : s.out = p.result x y := by
  unfold MulCtl.out MulPkt.result
  rw [h.low, h.prod]

/-! ## Runs -/

/-- The multiplier as a clocked design. -/
def machine : Machine MulCtl MulIn := ⟨{}, next⟩

/-- How often the pipeline moves in the `k` cycles behind cycle `t`: an operation that is issued in cycle `t` is in E1
before it moves, in E2 after one move and in E3 after two. -/
def moves (w : Nat → MulIn) (t : Nat) : Nat → Nat
  | 0 => 0
  | k + 1 => moves w t k + (!(w (t + 1 + k)).freeze).toNat

/-- Where an operation is after so many moves. -/
def InStage (i : MulIn) (load : BitVec 32) (s : MulCtl) : Nat → Prop
  | 0 => InE1 i s
  | 1 => InE2 i.mp (i.operandA load) (i.operandB load) s
  | 2 => InE3 i.mp (i.operandA load) (i.operandB load) s
  | _ => True

/-- The load that an operation waits for is there in every cycle the operation is in E1. -/
def LoadHeld (w : Nat → MulIn) (t : Nat) (load : BitVec 32) : Prop :=
  ((w t).mp.loadMulRs1BypassE1 || (w t).mp.loadMulRs2BypassE1) = true →
    ∀ k, moves w t k = 0 → (w (t + 1 + k)).lsuResultDc3 = load

/-- Until the pipeline moves the operands are those of the load that is held. -/
theorem LoadHeld.operands {w : Nat → MulIn} {t : Nat} {load : BitVec 32} (h : LoadHeld w t load) {k : Nat}
    (hk : moves w t k = 0) :
    (w t).operandA (w (t + 1 + k)).lsuResultDc3 = (w t).operandA load ∧
      (w t).operandB (w (t + 1 + k)).lsuResultDc3 = (w t).operandB load := by
  unfold LoadHeld at h
  unfold MulIn.operandA MulIn.operandB
  cases h1 : (w t).mp.loadMulRs1BypassE1 with
  | true =>
    rw [h1, Bool.true_or] at h
    rw [h rfl k hk]
    exact ⟨rfl, rfl⟩
  | false =>
    cases h2 : (w t).mp.loadMulRs2BypassE1 with
    | true =>
      rw [h1, h2, Bool.false_or] at h
      rw [h rfl k hk]
      exact ⟨rfl, rfl⟩
    | false => exact ⟨rfl, rfl⟩

/-- An operation goes through the stages, whatever is issued behind it. -/
theorem inStage_run {w : Nat → MulIn} {t : Nat} {load : BitVec 32} (hv : (w t).mp.valid = true)
    (hf : (w t).freeze = false) (hload : LoadHeld w t load) (k : Nat) :
    InStage (w t) load (machine.run w (t + 1 + k)) (moves w t k) := by
  induction k with
  | zero => exact inE1_next _ hv hf
  | succ k ih =>
    rw [← Nat.add_assoc, Machine.run_succ, moves]
    show InStage (w t) load ((machine.run w (t + 1 + k)).next (w (t + 1 + k))) _
    cases hfreeze : (w (t + 1 + k)).freeze with
    | true =>
      rw [next_of_freeze hfreeze]
      exact ih
    | false =>
      show InStage (w t) load _ (moves w t k + 1)
      rcases hm : moves w t k with _ | _ | n
      · rw [hm] at ih
        have hnext := InE1.next ih hfreeze
        obtain ⟨ha, hb⟩ := hload.operands hm
        rw [ha, hb] at hnext
        exact hnext
      · rw [hm] at ih
        exact InE2.next ih hfreeze
      · exact trivial

end MulCtl

end SocRV
