import SocRV.Core.Fpnew
import SocRV.Core.FpState

/-!
# The two decoders of a floating-point instruction

The decoder's legality is that of the RV32F encodings, and what the floating-point unit asks of `fpnew` is what the
instruction means.
-/

namespace SocRV

open Binary32

/-- The opcodes of the extension. -/
def FpOpcode (i : BitVec 32) : Prop := fpOp i = true ∨ opcode i = 0b0000111 ∨ opcode i = 0b0100111

instance (i : BitVec 32) : Decidable (FpOpcode i) :=
  inferInstanceAs (Decidable (fpOp i = true ∨ opcode i = 0b0000111 ∨ opcode i = 0b0100111))

/-! ## Legality -/

/-- The decoder's rounding modes are those of the instruction set. -/
theorem rmLegal_eq (i : BitVec 32) (frm : BitVec 3) :
    rmLegal i frm = (RoundMode.resolve (funct3 i) frm).isSome := by
  have hall : ∀ rm frm : BitVec 3,
      (decide (rm ≤ 0b100) || (rm == 0b111 && decide (frm ≤ 0b100))) = (RoundMode.resolve rm frm).isSome := by decide
  exact hall (funct3 i) frm

/-- A word with the given fields. -/
theorem rType_eq {i : BitVec 32} {f7 : BitVec 7} {rs2 : BitVec 5} {f3 : BitVec 3} {op : BitVec 7}
    (h7 : funct7 i = f7) (h2 : i.extractLsb' 20 5 = rs2) (h3 : funct3 i = f3) (hop : opcode i = op) :
    rType f7 rs2 (i.extractLsb' 15 5) f3 (i.extractLsb' 7 5) op = i := by
  subst h7 h2 h3 hop
  exact rType_fields i

/-- The integer table has no instruction with the opcode of a floating-point load or store. -/
theorem decLegal_fpMem {i : BitVec 32} (h : opcode i = 0b0000111 ∨ opcode i = 0b0100111) :
    decLegal i.getLsbD = false := by
  have hbit : ∀ k < 7, i.getLsbD k = (opcode i).getLsbD k := by
    intro k hk
    rw [opcode, BitVec.getLsbD_extractLsb', decide_eq_true hk, Bool.true_and, Nat.zero_add]
  have h2 : i.getLsbD 2 = true := by rcases h with h | h <;> rw [hbit 2 (by decide), h] <;> rfl
  have h3 : i.getLsbD 3 = false := by rcases h with h | h <;> rw [hbit 3 (by decide), h] <;> rfl
  have h4 : i.getLsbD 4 = false := by rcases h with h | h <;> rw [hbit 4 (by decide), h] <;> rfl
  have h6 : i.getLsbD 6 = false := by rcases h with h | h <;> rw [hbit 6 (by decide), h] <;> rfl
  unfold decLegal
  generalize i.getLsbD = b at h2 h3 h4 h6 ⊢
  simp [h2, h3, h4, h6]

/-- The fields a fused multiply-add has in place of `funct7`. -/
@[simp] theorem fmt_append (rs3 : BitVec 5) : (rs3 ++ 0b00#2 : BitVec 7).extractLsb' 0 2 = 0b00#2 := by
  revert rs3
  decide

@[simp] theorem rs3_append (rs3 : BitVec 5) : (rs3 ++ 0b00#2 : BitVec 7).extractLsb' 2 5 = rs3 := by
  revert rs3
  decide

section Fields

variable (f7 : BitVec 7) (rs2 rs1 : BitVec 5) (f3 : BitVec 3) (rd : BitVec 5) (op : BitVec 7)

@[simp] theorem opcode_rType : opcode (rType f7 rs2 rs1 f3 rd op) = op := rType_opcode ..

@[simp] theorem funct3_rType : funct3 (rType f7 rs2 rs1 f3 rd op) = f3 := rType_funct3 ..

@[simp] theorem funct7_rType : funct7 (rType f7 rs2 rs1 f3 rd op) = f7 := rType_funct7 ..

end Fields

/-- The encodings of the instructions that compute are those of `i0_fp_op`. -/
theorem fpOp_encode (x : Rv32f) : fpOp x.encode = x.computes := by
  cases x with
  | fused op => cases op <;> simp [Rv32f.encode, Rv32f.computes, fpOp, fpFused, FusedOp.opcode]
  | _ => simp [Rv32f.encode, Rv32f.computes, fpOp, fpFused, opFp]

/-- The encodings the decoder accepts are those whose rounding mode is one. -/
theorem fpEncodingLegal_encode {x : Rv32f} {frm : BitVec 3} (hx : x.computes = true) :
    fpEncodingLegal x.encode frm = true ↔ x.Legal frm := by
  unfold fpEncodingLegal fpFused Rv32f.Legal
  cases x with
  | flw => cases hx
  | fsw => cases hx
  | fused op => cases op <;> simp [Rv32f.encode, Rv32f.rm, FusedOp.opcode, rmLegal_eq]
  | arith op => cases op <;> simp [Rv32f.encode, Rv32f.rm, opFp, ArithOp.funct7, rmLegal_eq]
  | fsqrt => simp [Rv32f.encode, Rv32f.rm, opFp, rmLegal_eq]
  | fsgnj k => cases k <;> simp [Rv32f.encode, Rv32f.rm, opFp, Injection.funct3]
  | fminmax max => cases max <;> simp [Rv32f.encode, Rv32f.rm, opFp]
  | fcmp k => cases k <;> simp [Rv32f.encode, Rv32f.rm, opFp, Comparison.funct3]
  | fcvtToInt unsigned => cases unsigned <;> simp [Rv32f.encode, Rv32f.rm, opFp, rmLegal_eq]
  | fcvtFromInt unsigned => cases unsigned <;> simp [Rv32f.encode, Rv32f.rm, opFp, rmLegal_eq]
  | fmvXW => simp [Rv32f.encode, Rv32f.rm, opFp]
  | fclass => simp [Rv32f.encode, Rv32f.rm, opFp]
  | fmvWX => simp [Rv32f.encode, Rv32f.rm, opFp]

/-- A field that may be 0 or 1. -/
theorem rs2_cases {i : BitVec 32} (h : i.extractLsb' 21 4 = 0#4) :
    ∃ unsigned : Bool, i.extractLsb' 20 5 = if unsigned then 1 else 0 := by
  have hall : ∀ v : BitVec 5, v.extractLsb' 1 4 = 0#4 → v = (if v.getLsbD 0 then 1 else 0) := by decide
  refine ⟨(i.extractLsb' 20 5).getLsbD 0, hall _ ?_⟩
  rw [← rType_fields i, rType_rs2Hi] at h
  exact h

/-- With a format of single precision, `funct7` is `rs3` and the format. -/
theorem funct7_of_fmt {i : BitVec 32} (h : i.extractLsb' 25 2 = 0b00#2) :
    funct7 i = i.extractLsb' 27 5 ++ 0b00#2 := by
  have hall : ∀ v : BitVec 7, v.extractLsb' 0 2 = 0b00#2 → v = v.extractLsb' 2 5 ++ 0b00#2 := by decide
  have hrs3 : (funct7 i).extractLsb' 2 5 = i.extractLsb' 27 5 := by
    rw [← rType_fields i, rType_rs3, funct7_rType]
  rw [← hrs3]
  apply hall
  rw [← rType_fields i, rType_fmt] at h
  exact h

/-- A choice among rows: the first one that applies. -/
theorem row_cases {c a b : Bool} (h : (if c = true then a else b) = true) :
    (c = true ∧ a = true) ∨ (c = false ∧ b = true) := by
  cases c
  · exact .inr ⟨rfl, h⟩
  · exact .inl ⟨rfl, h⟩

/-- Every word `i0_fp_encoding_legal` accepts is the encoding of an instruction that computes. -/
theorem exists_encode {i : BitVec 32} {frm : BitVec 3} (h : fpEncodingLegal i frm = true) :
    ∃ x : Rv32f, x.encode = i ∧ x.computes = true := by
  have hle2 : ∀ b : BitVec 3, b ≤ 0b010 → b = 0b000 ∨ b = 0b001 ∨ b = 0b010 := by decide
  have hle1 : ∀ b : BitVec 3, b ≤ 0b001 → b = 0b000 ∨ b = 0b001 := by decide
  obtain ⟨hfused, h⟩ | ⟨-, h⟩ := row_cases h
  · have hf7 := funct7_of_fmt (eq_of_beq (Bool.and_eq_true_iff.mp h).1)
    simp only [fpFused, Bool.or_eq_true, beq_iff_eq] at hfused
    obtain ((hop | hop) | hop) | hop := hfused
    · exact ⟨.fused .madd (i.extractLsb' 27 5) _ _ _ _, rType_eq hf7 rfl rfl hop, rfl⟩
    · exact ⟨.fused .msub (i.extractLsb' 27 5) _ _ _ _, rType_eq hf7 rfl rfl hop, rfl⟩
    · exact ⟨.fused .nmsub (i.extractLsb' 27 5) _ _ _ _, rType_eq hf7 rfl rfl hop, rfl⟩
    · exact ⟨.fused .nmadd (i.extractLsb' 27 5) _ _ _ _, rType_eq hf7 rfl rfl hop, rfl⟩
  obtain ⟨hop, h⟩ | ⟨-, h⟩ := row_cases h
  swap
  · cases h
  replace hop := eq_of_beq hop
  obtain ⟨h4, -⟩ | ⟨-, h⟩ := row_cases h
  · simp only [Bool.or_eq_true, beq_iff_eq] at h4
    obtain ((hf7 | hf7) | hf7) | hf7 := h4
    · exact ⟨.arith .add _ _ _ _, rType_eq hf7 rfl rfl hop, rfl⟩
    · exact ⟨.arith .sub _ _ _ _, rType_eq hf7 rfl rfl hop, rfl⟩
    · exact ⟨.arith .mul _ _ _ _, rType_eq hf7 rfl rfl hop, rfl⟩
    · exact ⟨.arith .div _ _ _ _, rType_eq hf7 rfl rfl hop, rfl⟩
  obtain ⟨hf7, h⟩ | ⟨-, h⟩ := row_cases h
  · have hrs2 := eq_of_beq (Bool.and_eq_true_iff.mp h).1
    exact ⟨.fsqrt _ _ _, rType_eq (eq_of_beq hf7) hrs2 rfl hop, rfl⟩
  obtain ⟨hf7, h⟩ | ⟨-, h⟩ := row_cases h
  · obtain hf3 | hf3 | hf3 := hle2 _ (of_decide_eq_true h)
    · exact ⟨.fsgnj .copy _ _ _, rType_eq (eq_of_beq hf7) rfl hf3 hop, rfl⟩
    · exact ⟨.fsgnj .opposite _ _ _, rType_eq (eq_of_beq hf7) rfl hf3 hop, rfl⟩
    · exact ⟨.fsgnj .xor _ _ _, rType_eq (eq_of_beq hf7) rfl hf3 hop, rfl⟩
  obtain ⟨hf7, h⟩ | ⟨-, h⟩ := row_cases h
  · obtain hf3 | hf3 := hle1 _ (of_decide_eq_true h)
    · exact ⟨.fminmax false _ _ _, rType_eq (eq_of_beq hf7) rfl hf3 hop, rfl⟩
    · exact ⟨.fminmax true _ _ _, rType_eq (eq_of_beq hf7) rfl hf3 hop, rfl⟩
  obtain ⟨hf7, h⟩ | ⟨-, h⟩ := row_cases h
  · obtain hf3 | hf3 | hf3 := hle2 _ (of_decide_eq_true h)
    · exact ⟨.fcmp .le _ _ _, rType_eq (eq_of_beq hf7) rfl hf3 hop, rfl⟩
    · exact ⟨.fcmp .lt _ _ _, rType_eq (eq_of_beq hf7) rfl hf3 hop, rfl⟩
    · exact ⟨.fcmp .eq _ _ _, rType_eq (eq_of_beq hf7) rfl hf3 hop, rfl⟩
  obtain ⟨hf7, h⟩ | ⟨-, h⟩ := row_cases h
  · obtain ⟨unsigned, hrs2⟩ := rs2_cases (eq_of_beq (Bool.and_eq_true_iff.mp h).1)
    exact ⟨.fcvtToInt unsigned _ _ _, rType_eq (eq_of_beq hf7) hrs2 rfl hop, rfl⟩
  obtain ⟨hf7, h⟩ | ⟨-, h⟩ := row_cases h
  · obtain ⟨unsigned, hrs2⟩ := rs2_cases (eq_of_beq (Bool.and_eq_true_iff.mp h).1)
    exact ⟨.fcvtFromInt unsigned _ _ _, rType_eq (eq_of_beq hf7) hrs2 rfl hop, rfl⟩
  obtain ⟨hf7, h⟩ | ⟨-, h⟩ := row_cases h
  · simp only [Bool.and_eq_true, Bool.or_eq_true, beq_iff_eq] at h
    obtain ⟨hrs2, hf3 | hf3⟩ := h
    · exact ⟨.fmvXW _ _, rType_eq (eq_of_beq hf7) hrs2 hf3 hop, rfl⟩
    · exact ⟨.fclass _ _, rType_eq (eq_of_beq hf7) hrs2 hf3 hop, rfl⟩
  obtain ⟨hf7, h⟩ | ⟨-, h⟩ := row_cases h
  · simp only [Bool.and_eq_true, beq_iff_eq] at h
    exact ⟨.fmvWX _ _, rType_eq (eq_of_beq hf7) h.1 h.2 hop, rfl⟩
  · cases h

/-- The decoder's packets of the encodings: which of them go to the floating-point unit, and which integer registers
they write and read. -/
theorem i0Dp_encode (x : Rv32f) (frm : BitVec 3) :
    (i0Dp x.encode true frm false).fpu = x.computes ∧ (i0Dp x.encode true frm false).rd = x.writesGpr ∧
      (i0Dp x.encode true frm false).rs1 = x.readsGpr := by
  unfold i0Dp Rv32f.computes Rv32f.writesGpr Rv32f.readsGpr fpload fpstore fpWritesGpr fpReadsGpr
  simp only [fpOp_encode, Bool.false_eq_true, if_false]
  cases x with
  | flw => simp [Rv32f.encode, Rv32f.computes]
  | fsw => simp [Rv32f.encode, Rv32f.computes]
  | fused op => cases op <;> simp [Rv32f.encode, Rv32f.computes, FusedOp.opcode]
  | arith op => cases op <;> simp [Rv32f.encode, Rv32f.computes, opFp, ArithOp.funct7]
  | _ => simp [Rv32f.encode, Rv32f.computes, opFp]

/-- The decoder accepts the encodings of the extension whose rounding mode is one. -/
theorem legal_encode (x : Rv32f) (frm : BitVec 3) :
    (i0Dp x.encode true frm false).legal = true ↔ x.Legal frm := by
  unfold i0Dp
  simp only [fpOp_encode, Bool.false_eq_true, if_false]
  by_cases hx : x.computes = true
  · rw [← fpEncodingLegal_encode hx]
    simp [hx]
  · cases x with
    | flw => simp [Rv32f.computes, fpload, Rv32f.encode, Rv32f.Legal, Rv32f.rm]
    | fsw => simp [Rv32f.computes, fpload, fpstore, Rv32f.encode, Rv32f.Legal, Rv32f.rm]
    | _ => exact absurd rfl hx

/-- Nothing else with an opcode of the extension is accepted. -/
theorem encode_of_legal {i : BitVec 32} {frm : BitVec 3} (hi : FpOpcode i)
    (h : (i0Dp i true frm false).legal = true) : ∃ x : Rv32f, x.encode = i := by
  have himm : ∀ (f7 : BitVec 7) (f5 : BitVec 5), (f7 ++ f5 : BitVec 12).extractLsb' 5 7 = f7 ∧
      (f7 ++ f5 : BitVec 12).extractLsb' 0 5 = f5 := by
    intro f7 f5
    exact ⟨BitVec.extractLsb'_append_eq_left, BitVec.extractLsb'_append_eq_right⟩
  unfold i0Dp at h
  rw [if_neg Bool.false_ne_true] at h
  by_cases hop : fpOp i = true
  · rw [if_pos hop] at h
    have hlegal : fpEncodingLegal i frm = true := by simpa using h
    obtain ⟨x, hx, -⟩ := exists_encode hlegal
    exact ⟨x, hx⟩
  rw [if_neg hop] at h
  by_cases hload : fpload i = true
  · obtain ⟨hopc, hf3⟩ := Bool.and_eq_true_iff.mp hload
    refine ⟨.flw (funct7 i ++ i.extractLsb' 20 5) (i.extractLsb' 15 5) (i.extractLsb' 7 5), ?_⟩
    rw [Rv32f.encode, (himm _ _).1, (himm _ _).2]
    exact rType_eq rfl rfl (eq_of_beq hf3) (eq_of_beq hopc)
  rw [if_neg hload] at h
  by_cases hstore : fpstore i = true
  · obtain ⟨hopc, hf3⟩ := Bool.and_eq_true_iff.mp hstore
    refine ⟨.fsw (funct7 i ++ i.extractLsb' 7 5) (i.extractLsb' 20 5) (i.extractLsb' 15 5), ?_⟩
    rw [Rv32f.encode, (himm _ _).1, (himm _ _).2, ← eq_of_beq hf3, ← eq_of_beq hopc]
    exact rType_fields i
  rw [if_neg hstore] at h
  have hno : (decDecCtl i).legal = false := decLegal_fpMem (hi.resolve_left hop)
  rw [hno] at h
  cases h

/-! ## The request -/

/-- The request of an instruction whose operands come from the register files. -/
def registerRequest (i : BitVec 32) (frm : BitVec 3) (x f : BitVec 5 → BitVec 32) : FpnewRequest :=
  fpuRequest i frm (x (instRs1 i)) (f (instRs1 i)) (f (instRs2 i)) (f (instRs3 i))

section Operands

variable (f7 : BitVec 7) (rs2 rs1 : BitVec 5) (f3 : BitVec 3) (rd : BitVec 5) (op : BitVec 7)

@[simp] theorem instRd_rType : instRd (rType f7 rs2 rs1 f3 rd op) = rd := rType_rd ..

@[simp] theorem instRs1_rType : instRs1 (rType f7 rs2 rs1 f3 rd op) = rs1 := rType_rs1 ..

@[simp] theorem instRs2_rType : instRs2 (rType f7 rs2 rs1 f3 rd op) = rs2 := rType_rs2 ..

@[simp] theorem instRs3_rType : instRs3 (rType f7 rs2 rs1 f3 rd op) = f7.extractLsb' 2 5 := rType_rs3 ..

end Operands

/-- The destination register of an encoding. -/
theorem instRd_encode {instr : Rv32f} (h : instr.computes = true) : instRd instr.encode = instr.rd := by
  cases instr with
  | flw => cases h
  | fsw => cases h
  | _ => exact instRd_rType ..

section Request

variable (R : Rounding) (frm : BitVec 3) (x f : BitVec 5 → BitVec 32)

/-- A fused multiply-add is asked for as one, its signs turned where the instruction turns them. -/
theorem request_fused (op : FusedOp) (rs3 rs2 rs1 : BitVec 5) (rm : BitVec 3) (rd : BitVec 5) :
    (registerRequest (Rv32f.fused op rs3 rs2 rs1 rm rd).encode frm x f).result R =
      (Rv32f.fused op rs3 rs2 rs1 rm rd).result R frm x f := by
  unfold registerRequest fpuRequest FpnewRequest.result Rv32f.result Rv32f.encode RoundMode.resolve FusedOp.exact
    addend
  cases op with
  | madd => simp [FusedOp.opcode, Datum.mulAdd]
  | msub => simp [FusedOp.opcode, Datum.mulAdd, datum_turned]
  | nmsub => simp [FusedOp.opcode, Datum.mulAdd, datum_turned, product_negate]
  | nmadd => simp [FusedOp.opcode, Datum.mulAdd, datum_turned, product_negate]

/-- A sum is asked for in the slots of a fused multiply-add by one, a product in those of one that adds zero. -/
theorem request_arith (op : ArithOp) (rs2 rs1 : BitVec 5) (rm : BitVec 3) (rd : BitVec 5) :
    (registerRequest (Rv32f.arith op rs2 rs1 rm rd).encode frm x f).result R =
      (Rv32f.arith op rs2 rs1 rm rd).result R frm x f := by
  unfold registerRequest fpuRequest FpnewRequest.result Rv32f.result Rv32f.encode RoundMode.resolve ArithOp.exact
    addend
  cases op with
  | add => simp [opFp, ArithOp.funct7, mulAdd_one]
  | sub => simp [opFp, ArithOp.funct7, mulAdd_one, datum_turned]
  | mul => simp [opFp, ArithOp.funct7, mulAdd_zeroWord]
  | div => simp [opFp, ArithOp.funct7]

/-- What `mycpu_fpu` asks of `fpnew` for an instruction that computes is what the instruction means. -/
theorem request_result {i : Rv32f} (hi : i.computes = true) :
    (registerRequest i.encode frm x f).result R = i.result R frm x f := by
  cases i with
  | flw => cases hi
  | fsw => cases hi
  | fused op rs3 rs2 rs1 rm rd => exact request_fused R frm x f op rs3 rs2 rs1 rm rd
  | arith op rs2 rs1 rm rd => exact request_arith R frm x f op rs2 rs1 rm rd
  | fsqrt =>
    simp [registerRequest, fpuRequest, Rv32f.encode, FpnewRequest.result, Rv32f.result, opFp, RoundMode.resolve]
  | fsgnj k =>
    cases k <;>
      simp [registerRequest, fpuRequest, Rv32f.encode, FpnewRequest.result, Rv32f.result, opFp, Injection.funct3,
        rneBits, rtzBits, rdnBits]
  | fminmax max =>
    cases max <;>
      simp [registerRequest, fpuRequest, Rv32f.encode, FpnewRequest.result, Rv32f.result, opFp, rneBits, rtzBits]
  | fcmp k =>
    cases k <;>
      simp [registerRequest, fpuRequest, Rv32f.encode, FpnewRequest.result, Rv32f.result, opFp, Comparison.funct3,
        rneBits, rtzBits, rdnBits]
  | fcvtToInt unsigned =>
    cases unsigned <;>
      simp [registerRequest, fpuRequest, Rv32f.encode, FpnewRequest.result, Rv32f.result, opFp, RoundMode.resolve]
  | fcvtFromInt unsigned =>
    cases unsigned <;>
      simp [registerRequest, fpuRequest, Rv32f.encode, FpnewRequest.result, Rv32f.result, opFp, RoundMode.resolve]
  | fmvXW =>
    simp [registerRequest, fpuRequest, Rv32f.encode, FpnewRequest.result, Rv32f.result, opFp, rneBits, rtzBits,
      rdnBits, rupBits]
  | fclass => simp [registerRequest, fpuRequest, Rv32f.encode, FpnewRequest.result, Rv32f.result, opFp]
  | fmvWX =>
    simp [registerRequest, fpuRequest, Rv32f.encode, FpnewRequest.result, Rv32f.result, opFp, rneBits, rtzBits,
      rdnBits, rupBits]

/-- With a rounding mode where one is used, an instruction that computes has a result. -/
theorem result_isSome {i : Rv32f} (hi : i.computes = true) (hl : i.Legal frm) :
    (i.result R frm x f).isSome = true := by
  cases i with
  | flw => cases hi
  | fsw => cases hi
  | fused => rw [Rv32f.result, Option.isSome_map]; exact hl _ rfl
  | arith => rw [Rv32f.result, Option.isSome_map]; exact hl _ rfl
  | fsqrt => rw [Rv32f.result, Option.isSome_map]; exact hl _ rfl
  | fcvtToInt => rw [Rv32f.result, Option.isSome_map]; exact hl _ rfl
  | fcvtFromInt => rw [Rv32f.result, Option.isSome_map]; exact hl _ rfl
  | fsgnj => rfl
  | fminmax => rfl
  | fcmp => rfl
  | fmvXW => rfl
  | fclass => rfl
  | fmvWX => rfl

end Request

/-- The destination of a request, for every instruction word: the decoder and the unit agree on the register file. -/
theorem fpuRequest_dest (i : BitVec 32) (frm : BitVec 3) (v a b c : BitVec 32) :
    (fpuRequest i frm v a b c).writesGpr = fpWritesGpr i ∧ (fpuRequest i frm v a b c).writesFpr = (!fpWritesGpr i) ∧
      (fpuRequest i frm v a b c).rd = instRd i := by
  unfold fpuRequest fpWritesGpr
  simp only [apply_ite FpnewRequest.writesGpr, apply_ite FpnewRequest.writesFpr, apply_ite FpnewRequest.rd, ite_self]
  by_cases hop : opcode i = 0b1010011#7
  · by_cases h1 : funct7 i = 0b1010000#7
    · simp [hop, h1, instRd]
    · by_cases h2 : funct7 i = 0b1100000#7
      · simp [hop, h2, instRd]
      · by_cases h3 : funct7 i = 0b1110000#7
        · simp [hop, h3, instRd]
        · simp [hop, h1, h2, h3, instRd]
  · simp [hop, instRd]

/-- The integer operand goes to the first slot, of the requests that use it. -/
theorem fpuRequest_operand0 (i : BitVec 32) (frm : BitVec 3) (v a b c : BitVec 32) :
    (fpuRequest i frm v a b c).operand0 = if fpReadsGpr i then v else a := by
  unfold fpuRequest fpReadsGpr
  simp only [apply_ite FpnewRequest.operand0]
  by_cases hop : opcode i = 0b1010011#7
  · by_cases h1 : funct7 i = 0b1101000#7
    · simp [hop, h1]
    · by_cases h2 : funct7 i = 0b1111000#7
      · simp [hop, h2]
      · simp [hop, h1, h2]
  · simp [hop]

/-- A request that does not use the integer operand does not depend on it. -/
theorem fpuRequest_of_not_reads {i : BitVec 32} (h : fpReadsGpr i = false) (frm : BitVec 3)
    (v w a b c : BitVec 32) : fpuRequest i frm v a b c = fpuRequest i frm w a b c := by
  unfold fpuRequest
  by_cases hop : opcode i = 0b1010011#7
  · simp [fpReadsGpr, hop] at h
    simp [hop, h.1, h.2]
  · simp [hop]

/-- The decoder reads the integer register just when the request depends on it. -/
theorem fpReadsGpr_iff (i : BitVec 32) (frm : BitVec 3) (a b c : BitVec 32) :
    fpReadsGpr i = true ↔ ∃ v w, fpuRequest i frm v a b c ≠ fpuRequest i frm w a b c := by
  constructor
  · intro h
    refine ⟨0, 1, fun heq => ?_⟩
    have hop := congrArg FpnewRequest.operand0 heq
    rw [fpuRequest_operand0, fpuRequest_operand0, h] at hop
    exact absurd hop (by simp)
  · rintro ⟨v, w, hne⟩
    by_contra h
    exact hne (fpuRequest_of_not_reads (Bool.not_eq_true _ ▸ h) frm v w a b c)

end SocRV
