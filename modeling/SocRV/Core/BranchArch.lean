import SocRV.Core.BranchTrack

/-!
# What a branch does architecturally

`BranchInst` is a branch or a jump with its operands: whether it is taken and where it goes then, which no prediction
enters.  The ALU that resolves it agrees on the first; the path it computes is the target only when the branch was not
predicted taken, and the way behind the branch otherwise.
-/

namespace SocRV

/-! ## The packets of branches -/

/-- A conditional branch compares in the ALU and is neither a jump nor a CSR access. -/
theorem decDecCtl_condbr {inst : BitVec 32} (h : (decDecCtl inst).condbr = true) :
    (decDecCtl inst).alu = true ∧ (decDecCtl inst).sub = true ∧ (decDecCtl inst).jal = false ∧
      (decDecCtl inst).csrRead = false ∧ (decDecCtl inst).csrWrite = false := by
  unfold decDecCtl at h ⊢
  generalize inst.getLsbD = b at h ⊢
  simp only [Bool.and_eq_true, Bool.not_eq_true'] at h
  obtain ⟨⟨h6, h4⟩, h2⟩ := h
  simp [h6, h4, h2]

/-- A legal word with bits 6 and 2 has bit 4 clear. -/
theorem decLegal_jal {b : Nat → Bool} (h : decLegal b = true) (h6 : b 6 = true) (h2 : b 2 = true) : b 4 = false := by
  by_contra h4
  simp [decLegal, h6, h4, h2] at h

/-- A legal jump is for the ALU and is no CSR access. -/
theorem decDecCtl_jal {inst : BitVec 32} (h : (decDecCtl inst).jal = true) (hl : (decDecCtl inst).legal = true) :
    (decDecCtl inst).alu = true ∧ (decDecCtl inst).sub = false ∧
      (decDecCtl inst).csrRead = false ∧ (decDecCtl inst).csrWrite = false := by
  unfold decDecCtl at h hl ⊢
  generalize inst.getLsbD = b at h hl ⊢
  simp only [Bool.and_eq_true] at h
  have h4 := decLegal_jal hl h.1 h.2
  simp [h.1, h.2, h4]

/-- A branch or a jump is what the table says: no error and no floating-point instruction. -/
theorem i0Dp_of_branch {inst : BitVec 32} {fpEnabled bad : Bool} {frm : BitVec 3}
    (h : (i0Dp inst fpEnabled frm bad).condbr = true ∨ (i0Dp inst fpEnabled frm bad).jal = true) :
    i0Dp inst fpEnabled frm bad = decDecCtl inst := by
  unfold i0Dp at h ⊢
  split_ifs at h ⊢ with hbad hop hload hstore
  · exact absurd h (by simp [DecPkt.error])
  · exact absurd h (by simp)
  · exact absurd h (by simp)
  · exact absurd h (by simp)
  · rfl

@[inherit_doc i0Dp_of_branch]
theorem i1Dp_of_branch {inst : BitVec 32} {bad : Bool}
    (h : (i1Dp inst bad).condbr = true ∨ (i1Dp inst bad).jal = true) : i1Dp inst bad = decDecCtl inst := by
  unfold i1Dp at h ⊢
  split_ifs at h ⊢ with hbad
  · exact absurd h (by simp [DecPkt.error])
  · rfl

namespace Dec

variable {s : Dec} {i : DecIn}

/-- An ALU instruction that decode issues to slot `i0` is resolved in E1 or in E4. -/
theorem i0AluDecodeD_eq (hd : s.i0DecodeD i = true) (hl : (i0dp i).legal = true) (halu : (i0dp i).alu = true)
    (hread : (i0dp i).csrRead = false) (hwrite : (i0dp i).csrWrite = false) :
    s.i0AluDecodeD i = !(i0SecondaryD i && s.i0LegalDecodeD i) := by
  have hlegal : s.i0LegalDecodeD i = true := by
    simp [i0LegalDecodeD, i0Legal, hd, hl, hread, hwrite, (of_i0Decode hd).2.2.2]
  rw [i0AluDecodeD, hlegal, halu, Bool.and_true, Bool.true_and, Bool.and_true]

@[inherit_doc i0AluDecodeD_eq]
theorem i1AluDecodeD_eq (hd : s.i1DecodeD i = true) (halu : (i1dp i).alu = true) :
    s.i1AluDecodeD i = !(i1SecondaryD i && s.i1DecodeD i) := by
  rw [i1AluDecodeD, hd, halu, Bool.and_true, Bool.true_and, Bool.and_true]

end Dec

/-! ## Branches with their operands -/

/-- A branch or a jump with the values of its two operands.  A jump adds them: they are the pc or a register, and the
immediate. -/
structure BranchInst where
  x : IbSlot
  leak1 : Bool
  a : BitVec 32
  b : BitVec 32

namespace BranchInst

variable (c : BranchInst)

/-- The packet of the table. -/
def dp : DecPkt := c.x.dpRaw

/-- The comparison `<` of the operands. -/
def less : Bool := if c.dp.unsign then c.a.ult c.b else c.a.slt c.b

/-- The instruction is taken. -/
def taken : Bool :=
  c.dp.jal || (c.dp.beq && c.a == c.b) || (c.dp.bne && c.a != c.b) || (c.dp.blt && c.less) || (c.dp.bge && !c.less)

/-- The offset of a conditional branch, `imm[12:1]`. -/
def offset : BitVec 12 :=
  c.x.instr.extractLsb' 31 1 ++ c.x.instr.extractLsb' 7 1 ++ c.x.instr.extractLsb' 25 6 ++ c.x.instr.extractLsb' 8 4

/-- Where the instruction goes when it is taken, without the lowest bit. -/
def target : BitVec 31 :=
  if c.dp.jal then (c.a + c.b).extractLsb' 1 31 else c.x.pc + c.offset.signExtend 31

/-- The instruction is taken to an address whose bit 1 is set. -/
def misaligned : Bool := c.taken && c.target.getLsbD 0

/-- The branch predictor has said that the instruction is taken. -/
def predictedTaken : Bool := c.x.brp.hist1 && c.x.brpValid c.leak1

/-- The prediction hides the target: the ALU has the path behind a branch that was rightly predicted taken, and its
bit 1 is not that of the target. -/
def hidden : Bool :=
  !c.dp.jal && c.predictedTaken && c.taken && (c.offset.getLsbD 0 != c.x.lengthOffset.getLsbD 0)

/-- `d` are the ports of the slot in the cycle in which the instruction is decoded. -/
structure Fits (c : BranchInst) (d : ExuSlotIn) : Prop where
  branch : c.dp.condbr = true ∨ c.dp.jal = true
  legal : c.dp.legal = true
  ap : d.ap = c.x.ap c.dp c.leak1
  jumps : (d.predictP.pcall || d.predictP.pja || d.predictP.pret) = (c.x.pcall c.dp || c.x.pja c.dp || c.x.pret c.dp)
  pc : d.pc = c.x.pc
  brImmed : d.brImmed = c.x.brImmed c.dp c.leak1

variable {c : BranchInst} {d l : ExuSlotIn} {sec : Bool}

/-- A jump is not a conditional branch, and the subtraction of a branch compares. -/
theorem Fits.kinds (h : c.Fits d) :
    c.dp.alu = true ∧ c.dp.sub = !c.dp.jal ∧ c.dp.csrRead = false ∧ c.dp.csrWrite = false := by
  rcases h.branch with hb | hj
  · obtain ⟨halu, hsub, hjal, hread, hwrite⟩ := decDecCtl_condbr hb
    exact ⟨halu, hsub.trans (by rw [dp, IbSlot.dpRaw, hjal]; rfl), hread, hwrite⟩
  · obtain ⟨halu, hsub, hread, hwrite⟩ := decDecCtl_jal hj h.legal
    exact ⟨halu, hsub.trans (by rw [hj]; rfl), hread, hwrite⟩

/-- The kinds of jumps are what the table calls a jump. -/
theorem jumps_eq : (c.x.jal c.dp || (c.x.pcall c.dp || c.x.pja c.dp || c.x.pret c.dp)) = c.dp.jal := by
  unfold IbSlot.jal IbSlot.pcall IbSlot.pja IbSlot.pret
  cases c.dp.jal <;> cases c.x.pcallCase <;> cases c.x.pjaCase <;> cases c.x.pretCase <;> rfl

/-- The ALU takes for a jump what the table does. -/
theorem Fits.anyJal (h : c.Fits d) : (ExuSlot.resolver d l sec).anyJal d.ap = c.dp.jal := by
  have hap : d.ap.jal = c.x.jal c.dp := by rw [h.ap]; rfl
  rw [ExuSlot.resolver_anyJal, Bool.or_assoc, Bool.or_assoc, ← Bool.or_assoc d.predictP.pcall, h.jumps, hap, jumps_eq]

/-- The ALU that resolves the instruction takes it when it is taken. -/
theorem Fits.taken (h : c.Fits d) (ha : (ExuSlot.resolver d l sec).aFf = c.a)
    (hb : (ExuSlot.resolver d l sec).bFf = c.b) : (ExuSlot.resolver d l sec).actualTaken d.ap = c.taken := by
  rw [Alu.actualTaken, h.anyJal, BranchInst.taken]
  cases hj : c.dp.jal with
  | true => simp
  | false =>
    have hsub : d.ap.sub = true := by
      rw [h.ap]
      exact h.kinds.2.1.trans (by rw [hj]; rfl)
    have hless : (ExuSlot.resolver d l sec).lt d.ap = c.less := by
      rw [Alu.lt_eq hsub, ha, hb, h.ap]
      rfl
    rw [hless, ha, hb, h.ap]
    simp [IbSlot.ap, bne]

/-- The path of the resolving ALU: the target, or the way behind a branch that was predicted taken. -/
theorem Fits.flushPath (h : c.Fits d) (ha : (ExuSlot.resolver d l sec).aFf = c.a)
    (hb : (ExuSlot.resolver d l sec).bFf = c.b) :
    (ExuSlot.resolver d l sec).flushPath d.ap =
      if !c.dp.jal && c.predictedTaken then c.x.pc + c.x.lengthOffset.signExtend 31 else c.target := by
  rw [Alu.flushPath, h.anyJal, target]
  cases hj : c.dp.jal with
  | true =>
    have hsub : d.ap.sub = false := by
      rw [h.ap]
      exact h.kinds.2.1.trans (by rw [hj]; rfl)
    have hout : (ExuSlot.resolver d l sec).aout d.ap = c.a + c.b := by
      apply BitVec.eq_of_toNat_eq
      simp [Alu.aout, Alu.sum, Alu.bm, hsub, ha, hb, BitVec.toNat_add]
    rw [if_pos rfl, hout]
    simp
  | false =>
    have hpc : (ExuSlot.resolver d l sec).pcFf = c.x.pc := by
      rw [← h.pc]
      cases sec <;> rfl
    have himm : (ExuSlot.resolver d l sec).brimmFf = c.x.brImmed c.dp c.leak1 := by
      rw [← h.brImmed]
      cases sec <;> rfl
    have hcond : c.dp.condbr = true := h.branch.resolve_right (by rw [hj]; decide)
    have hoff : c.x.brOffset = c.offset := by
      have hraw : c.x.dpRaw.jal = false := hj
      simp [IbSlot.brOffset, IbSlot.pcall, IbSlot.pja, hraw, offset]
    have hnt : (c.x.ap c.dp c.leak1).predictNt = !c.predictedTaken := by
      simp [IbSlot.ap, IbSlot.predictBr, hcond, predictedTaken]
    rw [Alu.pcout, hpc, himm, rvbradder_eq, IbSlot.brImmed, hnt, hj, hoff]
    by_cases hp : c.predictedTaken = true
    · simp [hp]
    · simp [hp]

/-- Bit 1 of where a branch with an offset goes. -/
theorem bit_of_offset (pc : BitVec 31) (offset : BitVec 12) :
    (pc + offset.signExtend 31).getLsbD 0 = (pc.getLsbD 0 ^^ offset.getLsbD 0) := by
  rw [BitVec.getLsbD_add (by decide), BitVec.carry_zero, Bool.xor_false, BitVec.getLsbD_signExtend]
  simp

/-- The resolving ALU tells the alignment of the target exactly when the prediction does not hide it. -/
theorem Fits.misaligned_iff (h : c.Fits d) (ha : (ExuSlot.resolver d l sec).aFf = c.a)
    (hb : (ExuSlot.resolver d l sec).bFf = c.b) :
    ((ExuSlot.resolver d l sec).actualTaken d.ap && ((ExuSlot.resolver d l sec).flushPath d.ap).getLsbD 0) =
      c.misaligned ↔ c.hidden = false := by
  rw [h.taken ha hb, h.flushPath ha hb, BranchInst.misaligned, hidden]
  cases ht : c.taken with
  | false => simp
  | true =>
    cases hp : !c.dp.jal && c.predictedTaken with
    | false => simp
    | true =>
      have hj : c.dp.jal = false := by
        rw [Bool.and_eq_true, Bool.not_eq_true'] at hp
        exact hp.1
      rw [if_pos rfl, target, if_neg (by rw [hj]; decide), bit_of_offset, bit_of_offset]
      cases c.x.pc.getLsbD 0 <;> cases c.offset.getLsbD 0 <;> cases c.x.lengthOffset.getLsbD 0 <;> decide

end BranchInst

end SocRV
