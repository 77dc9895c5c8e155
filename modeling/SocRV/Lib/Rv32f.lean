import SocRV.Lib.Binary32

/-!
# The RV32F instructions

The single-precision extension as a data type: the encoding of each instruction, whether its rounding mode is one, what
it computes from the registers, and which register files it reads and writes.
-/

namespace SocRV.Binary32

/-- The fused multiply-adds. -/
inductive FusedOp where
  | madd
  | msub
  | nmsub
  | nmadd
  deriving DecidableEq, Repr

/-- The rounded operations on two operands. -/
inductive ArithOp where
  | add
  | sub
  | mul
  | div
  deriving DecidableEq, Repr

/-- An instruction of the extension; `rm` is its rounding-mode field. -/
inductive Rv32f where
  | flw (imm : BitVec 12) (rs1 rd : BitVec 5)
  | fsw (imm : BitVec 12) (rs2 rs1 : BitVec 5)
  | fused (op : FusedOp) (rs3 rs2 rs1 : BitVec 5) (rm : BitVec 3) (rd : BitVec 5)
  | arith (op : ArithOp) (rs2 rs1 : BitVec 5) (rm : BitVec 3) (rd : BitVec 5)
  | fsqrt (rs1 : BitVec 5) (rm : BitVec 3) (rd : BitVec 5)
  | fsgnj (k : Injection) (rs2 rs1 rd : BitVec 5)
  | fminmax (max : Bool) (rs2 rs1 rd : BitVec 5)
  | fcmp (k : Comparison) (rs2 rs1 rd : BitVec 5)
  | fcvtToInt (unsigned : Bool) (rs1 : BitVec 5) (rm : BitVec 3) (rd : BitVec 5)
  | fcvtFromInt (unsigned : Bool) (rs1 : BitVec 5) (rm : BitVec 3) (rd : BitVec 5)
  | fmvXW (rs1 rd : BitVec 5)
  | fclass (rs1 rd : BitVec 5)
  | fmvWX (rs1 rd : BitVec 5)
  deriving DecidableEq, Repr

/-! ## Encodings -/

/-- A word from its fields. -/
def rType (funct7 : BitVec 7) (rs2 rs1 : BitVec 5) (funct3 : BitVec 3) (rd : BitVec 5) (opcode : BitVec 7) :
    BitVec 32 :=
  funct7 ++ rs2 ++ rs1 ++ funct3 ++ rd ++ opcode

/-- A word is put together from its fields. -/
theorem rType_fields (i : BitVec 32) :
    rType (i.extractLsb' 25 7) (i.extractLsb' 20 5) (i.extractLsb' 15 5) (i.extractLsb' 12 3) (i.extractLsb' 7 5)
      (i.extractLsb' 0 7) = i := by
  apply BitVec.eq_of_getLsbD_eq
  intro k hk
  simp only [rType, BitVec.getLsbD_append, BitVec.getLsbD_extractLsb']
  split_ifs
  all_goals
    rw [decide_eq_true (by omega), Bool.true_and]
    congr 1
    omega

section Fields

variable (funct7 : BitVec 7) (rs2 rs1 : BitVec 5) (funct3 : BitVec 3) (rd : BitVec 5) (op : BitVec 7)

/-- The bits of a word put together from its fields. -/
theorem getLsbD_rType (k : Nat) : (rType funct7 rs2 rs1 funct3 rd op).getLsbD k =
    if k < 7 then op.getLsbD k
    else if k < 12 then rd.getLsbD (k - 7)
    else if k < 15 then funct3.getLsbD (k - 12)
    else if k < 20 then rs1.getLsbD (k - 15)
    else if k < 25 then rs2.getLsbD (k - 20)
    else funct7.getLsbD (k - 25) := by
  simp only [rType, BitVec.getLsbD_append]
  grind

/-- A field of a word is known by its bits. -/
theorem field_eq {n : Nat} {w : BitVec 32} {start : Nat} {v : BitVec n}
    (h : ∀ k < n, w.getLsbD (start + k) = v.getLsbD k) : w.extractLsb' start n = v := by
  apply BitVec.eq_of_getLsbD_eq
  intro k hk
  rw [BitVec.getLsbD_extractLsb', h k hk, decide_eq_true hk, Bool.true_and]

@[simp] theorem rType_opcode : (rType funct7 rs2 rs1 funct3 rd op).extractLsb' 0 7 = op := by
  apply field_eq
  intro k hk
  rw [getLsbD_rType]
  grind

@[simp] theorem rType_rd : (rType funct7 rs2 rs1 funct3 rd op).extractLsb' 7 5 = rd := by
  apply field_eq
  intro k hk
  rw [getLsbD_rType]
  grind

@[simp] theorem rType_funct3 : (rType funct7 rs2 rs1 funct3 rd op).extractLsb' 12 3 = funct3 := by
  apply field_eq
  intro k hk
  rw [getLsbD_rType]
  grind

@[simp] theorem rType_rs1 : (rType funct7 rs2 rs1 funct3 rd op).extractLsb' 15 5 = rs1 := by
  apply field_eq
  intro k hk
  rw [getLsbD_rType]
  grind

@[simp] theorem rType_rs2 : (rType funct7 rs2 rs1 funct3 rd op).extractLsb' 20 5 = rs2 := by
  apply field_eq
  intro k hk
  rw [getLsbD_rType]
  grind

@[simp] theorem rType_funct7 : (rType funct7 rs2 rs1 funct3 rd op).extractLsb' 25 7 = funct7 := by
  apply field_eq
  intro k hk
  rw [getLsbD_rType]
  grind

/-- The format field is the low end of `funct7`, and `rs3` its high end. -/
@[simp] theorem rType_fmt : (rType funct7 rs2 rs1 funct3 rd op).extractLsb' 25 2 = funct7.extractLsb' 0 2 := by
  apply field_eq
  intro k hk
  rw [getLsbD_rType, BitVec.getLsbD_extractLsb']
  grind

/-- The field `rs3` of a fused multiply-add is the upper part of `funct7`. -/
@[simp] theorem rType_rs3 : (rType funct7 rs2 rs1 funct3 rd op).extractLsb' 27 5 = funct7.extractLsb' 2 5 := by
  apply field_eq
  intro k hk
  rw [getLsbD_rType, BitVec.getLsbD_extractLsb']
  grind

@[simp] theorem rType_rs2Hi : (rType funct7 rs2 rs1 funct3 rd op).extractLsb' 21 4 = rs2.extractLsb' 1 4 := by
  apply field_eq
  intro k hk
  rw [getLsbD_rType, BitVec.getLsbD_extractLsb']
  grind

@[simp] theorem rType_rs2Lo : (rType funct7 rs2 rs1 funct3 rd op)[20] = rs2.getLsbD 0 := by
  rw [← BitVec.getLsbD_eq_getElem, getLsbD_rType]
  rfl

end Fields

/-- The opcode of a fused multiply-add. -/
def FusedOp.opcode : FusedOp → BitVec 7
  | .madd => 0b1000011
  | .msub => 0b1000111
  | .nmsub => 0b1001011
  | .nmadd => 0b1001111

/-- The `funct7` of a rounded operation on two operands. -/
def ArithOp.funct7 : ArithOp → BitVec 7
  | .add => 0b0000000
  | .sub => 0b0000100
  | .mul => 0b0001000
  | .div => 0b0001100

/-- The `funct3` of a sign injection. -/
def Injection.funct3 : Injection → BitVec 3
  | .copy => 0b000
  | .opposite => 0b001
  | .xor => 0b010

/-- The `funct3` of a comparison. -/
def Comparison.funct3 : Comparison → BitVec 3
  | .le => 0b000
  | .lt => 0b001
  | .eq => 0b010

/-- The opcode of everything but the loads, the stores and the fused multiply-adds. -/
def opFp : BitVec 7 := 0b1010011

/-- The word of an instruction. -/
def Rv32f.encode : Rv32f → BitVec 32
  | .flw imm rs1 rd => rType (imm.extractLsb' 5 7) (imm.extractLsb' 0 5) rs1 0b010 rd 0b0000111
  | .fsw imm rs2 rs1 => rType (imm.extractLsb' 5 7) rs2 rs1 0b010 (imm.extractLsb' 0 5) 0b0100111
  | .fused op rs3 rs2 rs1 rm rd => rType (rs3 ++ 0b00#2) rs2 rs1 rm rd op.opcode
  | .arith op rs2 rs1 rm rd => rType op.funct7 rs2 rs1 rm rd opFp
  | .fsqrt rs1 rm rd => rType 0b0101100 0 rs1 rm rd opFp
  | .fsgnj k rs2 rs1 rd => rType 0b0010000 rs2 rs1 k.funct3 rd opFp
  | .fminmax max rs2 rs1 rd => rType 0b0010100 rs2 rs1 (if max then 0b001 else 0b000) rd opFp
  | .fcmp k rs2 rs1 rd => rType 0b1010000 rs2 rs1 k.funct3 rd opFp
  | .fcvtToInt unsigned rs1 rm rd => rType 0b1100000 (if unsigned then 1 else 0) rs1 rm rd opFp
  | .fcvtFromInt unsigned rs1 rm rd => rType 0b1101000 (if unsigned then 1 else 0) rs1 rm rd opFp
  | .fmvXW rs1 rd => rType 0b1110000 0 rs1 0b000 rd opFp
  | .fclass rs1 rd => rType 0b1110000 0 rs1 0b001 rd opFp
  | .fmvWX rs1 rd => rType 0b1111000 0 rs1 0b000 rd opFp

/-! ## Meaning -/

/-- The rounding mode three bits stand for, if any. -/
def RoundMode.ofBits (b : BitVec 3) : Option RoundMode :=
  match b with
  | 0b000 => some .rne
  | 0b001 => some .rtz
  | 0b010 => some .rdn
  | 0b011 => some .rup
  | 0b100 => some .rmm
  | _ => none

/-- The rounding mode of an instruction: its own, or the one of `frm` when its field is 7. -/
def RoundMode.resolve (rm frm : BitVec 3) : Option RoundMode := RoundMode.ofBits (if rm = 0b111 then frm else rm)

namespace Rv32f

/-- The rounding-mode field, of the instructions that round. -/
def rm : Rv32f → Option (BitVec 3)
  | .fused _ _ _ _ rm _ | .arith _ _ _ rm _ | .fsqrt _ rm _ | .fcvtToInt _ _ rm _ | .fcvtFromInt _ _ rm _ => some rm
  | _ => none

/-- Where a rounding mode is used, it is one. -/
def Legal (frm : BitVec 3) (x : Rv32f) : Prop := ∀ rm ∈ x.rm, (RoundMode.resolve rm frm).isSome = true

/-- The instruction is not a load or a store. -/
def computes : Rv32f → Bool
  | .flw .. | .fsw .. => false
  | _ => true

/-- The instruction reads the integer register `rs1`. -/
def readsGpr : Rv32f → Bool
  | .flw .. | .fsw .. | .fcvtFromInt .. | .fmvWX .. => true
  | _ => false

/-- The instruction writes its result to an integer register. -/
def writesGpr : Rv32f → Bool
  | .fcmp .. | .fcvtToInt .. | .fmvXW .. | .fclass .. => true
  | _ => false

/-- The destination register of an instruction that computes. -/
def rd : Rv32f → BitVec 5
  | .flw _ _ rd | .fused _ _ _ _ _ rd | .arith _ _ _ _ rd | .fsqrt _ _ rd | .fsgnj _ _ _ rd | .fminmax _ _ _ rd
  | .fcmp _ _ _ rd | .fcvtToInt _ _ _ rd | .fcvtFromInt _ _ _ rd | .fmvXW _ rd | .fclass _ rd | .fmvWX _ rd => rd
  | .fsw .. => 0

end Rv32f

/-- A fused multiply-add: the product or its negation, plus or minus the addend. -/
def FusedOp.exact (op : FusedOp) (rm : RoundMode) (a b c : Datum) : Exact :=
  match op with
  | .madd => (a.product b).add rm c
  | .msub => (a.product b).add rm c.negate
  | .nmsub => (a.product b).negate.add rm c
  | .nmadd => (a.product b).negate.add rm c.negate

/-- A rounded operation on two operands. -/
def ArithOp.exact (op : ArithOp) (rm : RoundMode) (a b : Datum) : Exact :=
  match op with
  | .add => a.add rm b
  | .sub => a.add rm b.negate
  | .mul => a.mul b
  | .div => a.div b

/-- The result and the flags of an instruction that computes, from the integer and the floating-point registers. -/
def Rv32f.result (R : Rounding) (frm : BitVec 3) (x f : BitVec 5 → BitVec 32) : Rv32f → Option FpResult
  | .flw .. | .fsw .. => none
  | .fused op rs3 rs2 rs1 rm _ =>
    (RoundMode.resolve rm frm).map fun m =>
      (op.exact m (datum (f rs1)) (datum (f rs2)) (datum (f rs3))).result R m
  | .arith op rs2 rs1 rm _ =>
    (RoundMode.resolve rm frm).map fun m => (op.exact m (datum (f rs1)) (datum (f rs2))).result R m
  | .fsqrt rs1 rm _ => (RoundMode.resolve rm frm).map fun m => (datum (f rs1)).sqrt.result R m
  | .fsgnj k rs2 rs1 _ => some (inject k (f rs1) (f rs2), 0)
  | .fminmax max rs2 rs1 _ => some (minMax max (f rs1) (f rs2))
  | .fcmp k rs2 rs1 _ =>
    let (holds, flags) := comparison k (f rs1) (f rs2)
    some (if holds then 1 else 0, flags)
  | .fcvtToInt unsigned rs1 rm _ => (RoundMode.resolve rm frm).map fun m => toInteger unsigned m (f rs1)
  | .fcvtFromInt unsigned rs1 rm _ =>
    (RoundMode.resolve rm frm).map fun m => (ofInteger unsigned (x rs1)).result R m
  | .fmvXW rs1 _ => some (f rs1, 0)
  | .fclass rs1 _ => some (classify (f rs1), 0)
  | .fmvWX rs1 _ => some (x rs1, 0)

end SocRV.Binary32
