import SocRV.Core.DecDecCtl
import SocRV.Core.MulCtl
import SocRV.Lib.Rv32f

/-!
# Multiplications

An operation that is issued to the multiplier has its result on the output for as long as it is in E3, whatever is issued
before and behind it and wherever the pipeline freezes.
-/

namespace SocRV

namespace MulCtl

/-- In every run, the output in E3 is the half of the product that the operation asks for, of the operands it is issued
with or that the load holds while it is in E1; and it does not change with what else is issued. -/
theorem multiplier_result (w : Nat → MulIn) (t : Nat) (load : BitVec 32) (hv : (w t).mp.valid = true)
    (hf : (w t).freeze = false) (hload : LoadHeld w t load) :
    (∀ k, moves w t k = 2 → (machine.run w (t + 1 + k)).out =
      (w t).mp.result ((w t).operandA load) ((w t).operandB load)) ∧
    ∀ w' : Nat → MulIn, w' t = w t → LoadHeld w' t load → (∀ k, (w' (t + 1 + k)).freeze = (w (t + 1 + k)).freeze) →
      ∀ k, moves w t k = 2 → (machine.run w' (t + 1 + k)).out = (machine.run w (t + 1 + k)).out := by
  have hresult : ∀ w : Nat → MulIn, (w t).mp.valid = true → (w t).freeze = false → LoadHeld w t load →
      ∀ k, moves w t k = 2 → (machine.run w (t + 1 + k)).out =
        (w t).mp.result ((w t).operandA load) ((w t).operandB load) := by
    intro w hv hf hload k hk
    have hstage := inStage_run hv hf hload k
    rw [hk] at hstage
    exact InE3.out hstage
  refine ⟨hresult w hv hf hload, fun w' hsame hload' hfreeze k hk => ?_⟩
  have hmoves : ∀ k, moves w' t k = moves w t k := by
    intro k
    induction k with
    | zero => rfl
    | succ k ih => rw [moves, moves, ih, hfreeze]
  rw [hresult w hv hf hload k hk,
    hresult w' (by rw [hsame]; exact hv) (by rw [hsame]; exact hf) hload' k (by rw [hmoves]; exact hk), hsame]

/-- `MULH` of -3 by the 5 that a load delivers, which freezes the pipeline for a cycle, with a `MUL` right behind it. -/
def multiply (n : Nat) : MulIn :=
  if n = 0 then
    { a := BitVec.ofInt 32 (-3)
      mp := { valid := true, rs1Sign := true, rs2Sign := true, loadMulRs2BypassE1 := true } }
  else { a := 2, b := 2, lsuResultDc3 := 5, freeze := decide (n = 1), mp := { valid := true, low := true } }

/-- The high half of -15 is there in the fourth cycle behind. -/
theorem multiplier_result_multiply : (multiply 0).mp.valid = true ∧ (multiply 0).freeze = false ∧
    LoadHeld multiply 0 5 ∧ moves multiply 0 3 = 2 ∧ (machine.run multiply 4).out = 0xffffffff := by
  have hload : LoadHeld multiply 0 5 := by
    intro _ k _
    unfold multiply
    rw [if_neg (by omega)]
  refine ⟨rfl, rfl, hload, by decide, ?_⟩
  exact ((multiplier_result multiply 0 5 rfl rfl hload).1 3 (by decide)).trans (by decide)

end MulCtl

/-! ## The instructions -/

/-- The multiplications of the instruction set. -/
inductive MulOp
  | mul
  | mulh
  | mulhsu
  | mulhu
  deriving DecidableEq, Repr

namespace MulOp

/-- The function field. -/
def funct3 : MulOp → BitVec 3
  | mul => 0b000#3
  | mulh => 0b001#3
  | mulhsu => 0b010#3
  | mulhu => 0b011#3

/-- What the instruction computes. -/
def result (a b : BitVec 32) : MulOp → BitVec 32
  | mul => a * b
  | mulh => (BitVec.ofInt 64 (a.toInt * b.toInt)).extractLsb' 32 32
  | mulhsu => (BitVec.ofInt 64 (a.toInt * b.toNat)).extractLsb' 32 32
  | mulhu => (BitVec.ofInt 64 (a.toNat * b.toNat)).extractLsb' 32 32

/-- The encoding. -/
def encode (rs2 rs1 rd : BitVec 5) (op : MulOp) : BitVec 32 := Binary32.rType 0b0000001#7 rs2 rs1 op.funct3 rd 0b0110011#7

end MulOp

/-- The packet of a decoded instruction. -/
def MulPkt.ofDec (d : DecPkt) : MulPkt := { valid := d.mul, rs1Sign := d.rs1Sign, rs2Sign := d.rs2Sign, low := d.low }

/-- The low half of a product does not depend on the signs. -/
theorem mulProduct_low (rs1Sign rs2Sign : Bool) (a b : BitVec 32) :
    (mulProduct rs1Sign rs2Sign a b).extractLsb' 0 32 = a * b := by
  have hword : ∀ (sign : Bool) (x : BitVec 32), BitVec.ofInt 32 (wordValue sign x) = x := by
    intro sign x
    unfold wordValue
    split
    · exact BitVec.ofInt_toInt
    · rw [BitVec.ofInt_natCast, BitVec.ofNat_toNat, BitVec.setWidth_eq]
  have hhalf : ∀ v : Int, (BitVec.ofInt 64 v).extractLsb' 0 32 = BitVec.ofInt 32 v := by
    intro v
    apply BitVec.eq_of_toNat_eq
    rw [BitVec.extractLsb'_toNat, Nat.shiftRight_zero, BitVec.toNat_ofInt, BitVec.toNat_ofInt]
    omega
  unfold mulProduct
  rw [hhalf, BitVec.ofInt_mul, hword, hword]

/-- The decoder tells the multiplications from their function field. -/
theorem MulPkt.ofDec_encode (op : MulOp) (rs2 rs1 rd : BitVec 5) :
    MulPkt.ofDec (decDecCtl (op.encode rs2 rs1 rd)) =
      { valid := true, rs1Sign := op != .mul && op != .mulhu, rs2Sign := op == .mulh, low := op == .mul } := by
  have hop : ∀ k < 7, (op.encode rs2 rs1 rd).getLsbD k = (0b0110011#7).getLsbD k := by
    intro k hk
    rw [MulOp.encode, Binary32.getLsbD_rType, if_pos hk]
  have hfunct3 : ∀ k < 3, (op.encode rs2 rs1 rd).getLsbD (12 + k) = op.funct3.getLsbD k := by
    intro k hk
    rw [MulOp.encode, Binary32.getLsbD_rType, if_neg (by omega), if_neg (by omega), if_pos (by omega),
      Nat.add_sub_cancel_left]
  have h25 : (op.encode rs2 rs1 rd).getLsbD 25 = true := by
    rw [MulOp.encode, Binary32.getLsbD_rType]
    rfl
  have h2 := hop 2 (by decide)
  have h4 := hop 4 (by decide)
  have h5 := hop 5 (by decide)
  have h6 := hop 6 (by decide)
  have h12 := hfunct3 0 (by decide)
  have h13 := hfunct3 1 (by decide)
  have h14 := hfunct3 2 (by decide)
  unfold MulPkt.ofDec decDecCtl
  generalize (op.encode rs2 rs1 rd).getLsbD = b at h2 h4 h5 h6 h12 h13 h14 h25 ⊢
  dsimp only
  rw [h2, h4, h5, h6, h12, h13, h14, h25]
  cases op <;> rfl

/-- Decode sends the multiplier what the instruction computes. -/
theorem MulOp.result_decoded (op : MulOp) (rs2 rs1 rd : BitVec 5) (a b : BitVec 32) :
    (MulPkt.ofDec (decDecCtl (op.encode rs2 rs1 rd))).valid = true ∧
      (MulPkt.ofDec (decDecCtl (op.encode rs2 rs1 rd))).result a b = op.result a b := by
  rw [MulPkt.ofDec_encode]
  refine ⟨rfl, ?_⟩
  cases op with
  | mul => exact mulProduct_low false false a b
  | mulh => rfl
  | mulhsu => rfl
  | mulhu => rfl

end SocRV
