import SocRV.Core.FpDecode

/-!
# Floating-point instructions

The words the decoder accepts under the opcodes of the extension are the RV32F encodings, and for each of them the
decoder's use of the integer registers and the request of the floating-point unit are those of the instruction.
-/

namespace SocRV

open Binary32

/-- The packet of the decoder and the request of the floating-point unit for the word `i` are those of the
instruction. -/
structure Denotes (i : BitVec 32) (frm : BitVec 3) (instr : Rv32f) : Prop where
  /-- The unit gets the instructions that compute. -/
  fpu : (i0Dp i true frm false).fpu = instr.computes
  /-- The packet writes and reads the integer registers the instruction does. -/
  rd : (i0Dp i true frm false).rd = instr.writesGpr
  rs1 : (i0Dp i true frm false).rs1 = instr.readsGpr
  /-- What `fpnew` makes of the request is the result of the instruction, whatever the registers hold. -/
  result : instr.computes = true → ∀ (R : Rounding) (x f : BitVec 5 → BitVec 32), ∃ r,
    instr.result R frm x f = some r ∧ (registerRequest i frm x f).result R = some r
  /-- The result goes to the register of the instruction, in the file the packet names. -/
  dest : instr.computes = true → ∀ v a b c : BitVec 32,
    (fpuRequest i frm v a b c).writesGpr = (i0Dp i true frm false).rd ∧
      (fpuRequest i frm v a b c).writesFpr = (!(i0Dp i true frm false).rd) ∧
      (fpuRequest i frm v a b c).rd = instr.rd
  /-- The packet reads an integer register just when the request depends on it. -/
  intRs1 : instr.computes = true → ∀ a b c : BitVec 32,
    ((i0Dp i true frm false).rs1 = true ↔ ∃ v w, fpuRequest i frm v a b c ≠ fpuRequest i frm w a b c)

/-- The request for an encoding is the one of its instruction. -/
theorem denotes_encode {instr : Rv32f} {frm : BitVec 3} (h : instr.Legal frm) : Denotes instr.encode frm instr := by
  obtain ⟨hfpu, hrd, hrs1⟩ := i0Dp_encode instr frm
  refine ⟨hfpu, hrd, hrs1, ?_, ?_, ?_⟩
  · intro hc R x f
    obtain ⟨r, hr⟩ := Option.isSome_iff_exists.mp (result_isSome R frm x f hc h)
    exact ⟨r, hr, (request_result R frm x f hc).trans hr⟩
  · intro hc v a b c
    obtain ⟨hgpr, hfpr, hrd'⟩ := fpuRequest_dest instr.encode frm v a b c
    have hwrites : fpWritesGpr instr.encode = (i0Dp instr.encode true frm false).rd := by
      simp [i0Dp, fpOp_encode, hc]
    exact ⟨hgpr.trans hwrites, by rw [hfpr, hwrites], hrd'.trans (instRd_encode hc)⟩
  · intro hc a b c
    have hreads : fpReadsGpr instr.encode = (i0Dp instr.encode true frm false).rs1 := by
      simp [i0Dp, fpOp_encode, hc]
    rw [← hreads]
    exact fpReadsGpr_iff instr.encode frm a b c

/-- Under an opcode of the extension, the decoder accepts the encodings of instructions whose rounding mode, where one
is used, is one; and for each of these the packet and the request are those of the instruction. -/
theorem fp_decode_agrees {i : BitVec 32} (hi : FpOpcode i) (frm : BitVec 3) :
    ((i0Dp i true frm false).legal = true ↔ ∃ instr : Rv32f, instr.encode = i ∧ instr.Legal frm) ∧
      ∀ instr : Rv32f, instr.encode = i → instr.Legal frm → Denotes i frm instr := by
  refine ⟨⟨?_, ?_⟩, ?_⟩
  · intro h
    obtain ⟨instr, rfl⟩ := encode_of_legal hi h
    exact ⟨instr, rfl, (legal_encode instr frm).mp h⟩
  · rintro ⟨instr, rfl, hl⟩
    exact (legal_encode instr frm).mpr hl
  · rintro instr rfl hl
    exact denotes_encode hl

example : (Rv32f.arith .sub 2 1 0b111 3).encode = 0x0820f1d3 := by decide

example : (i0Dp 0x0820f1d3 true 0b101 false).legal = false := by decide

/-- `fsub.s f3, f1, f2` with the dynamic rounding mode, towards zero. -/
theorem fp_decode_agrees_fsub :
    FpOpcode 0x0820f1d3 ∧
      ((i0Dp 0x0820f1d3 true 0b001 false).legal = true ↔
        ∃ instr : Rv32f, instr.encode = 0x0820f1d3 ∧ instr.Legal 0b001) ∧
      ∀ instr : Rv32f, instr.encode = 0x0820f1d3 → instr.Legal 0b001 → Denotes 0x0820f1d3 0b001 instr :=
  ⟨by decide, fp_decode_agrees (by decide) 0b001⟩

end SocRV
