import SocRV.Core.Exu

/-!
# A branch in its slot

What the branch registers of a stage hold of an instruction: `InE1`, `Regs.Of` for E2 and E3, and `InE4` compare them
with the ports of the slot in the cycle in which the instruction was decoded.  Each stage hands on what the one before found, unless the pipeline
freezes, and then it keeps it.  In E4 the slot reports a misaligned target exactly when the ALU that resolved the
branch took it and the path it computed is misaligned; but that path is the way to go on from a misprediction, which
for a branch that was predicted taken is the one behind it.
-/

namespace SocRV

/-! ## The ALU -/

namespace Alu

variable {s : Alu} {ap : AluPkt} {i : AluIn}

/-- The adder subtracts, and its carry is kept in bit 32. -/
theorem sum_toNat (h : ap.sub = true) : (s.sum ap).toNat = s.aFf.toNat + (2 ^ 32 - s.bFf.toNat) := by
  have ha := s.aFf.isLt
  have hb := s.bFf.isLt
  simp only [sum, bm, h, if_pos, BitVec.toNat_add, BitVec.toNat_setWidth, BitVec.toNat_not, BitVec.toNat_ofNat]
  omega

/-- With operands of one sign the difference does not overflow, and its sign compares them. -/
theorem aout_msb (h : ap.sub = true) (hsign : s.aFf.msb = s.bFf.msb) : (s.aout ap).msb = s.aFf.ult s.bFf := by
  have ha := s.aFf.isLt
  have hb := s.bFf.isLt
  have hout : (s.aout ap).toNat = (s.aFf.toNat + (2 ^ 32 - s.bFf.toNat)) % 2 ^ 32 := by
    simp [aout, s.sum_toNat h]
  rw [BitVec.msb_eq_decide, BitVec.msb_eq_decide, decide_eq_decide] at hsign
  rw [BitVec.msb_eq_decide, BitVec.ult, decide_eq_decide, hout]
  omega

/-- The carry of the subtraction is high when nothing is borrowed. -/
theorem cout_eq (h : ap.sub = true) : (!s.cout ap) = s.aFf.ult s.bFf := by
  have ha := s.aFf.isLt
  have hb := s.bFf.isLt
  rw [cout, BitVec.msb_eq_decide, s.sum_toNat h, BitVec.ult, ← decide_not, decide_eq_decide]
  omega

/-- The comparison of a branch is that of its operands. -/
theorem lt_eq (h : ap.sub = true) :
    s.lt ap = if ap.unsign then s.aFf.ult s.bFf else s.aFf.slt s.bFf := by
  have hbm : (s.bm ap).msb = !s.bFf.msb := by simp [bm, h]
  cases hu : ap.unsign with
  | true => rw [lt, hu, cout_eq h, Bool.not_true, Bool.false_and, Bool.false_or, Bool.true_and, if_pos rfl]
  | false =>
    rw [if_neg Bool.false_ne_true, lt, hu, Bool.not_false, Bool.true_and, Bool.false_and, Bool.or_false, ov, hbm]
    by_cases hsign : s.aFf.msb = s.bFf.msb
    · -- no overflow
      rw [BitVec.slt_eq_ult_of_msb_eq hsign, ← aout_msb h hsign, hsign]
      cases s.bFf.msb <;> simp
    · -- the operand with the sign is the smaller one, whatever the difference is
      rw [BitVec.slt_eq_not_ult_of_msb_neq hsign, BitVec.ult_eq_msb_of_msb_neq hsign, Bool.eq_not_of_ne hsign]
      cases s.bFf.msb <;> cases (s.aout ap).msb <;> rfl

/-- Without a flush and a freeze the alignment check is on what the ALU takes. -/
theorem targetMisaligned_calm (hf : i.flush = false) (hz : i.freeze = false) :
    s.targetMisaligned ap i = (s.validFf && s.actualTaken ap && (s.flushPath ap).getLsbD 0) := by
  rw [targetMisaligned, hf, hz, Bool.not_false, Bool.and_true, Bool.and_true]

end Alu

/-! ## What the stages hold -/

namespace ExuSlotIn

/-- The ALU of E1 with the instruction in decode. -/
def alu (d : ExuSlotIn) : Alu where
  validFf := d.aluDecode
  aFf := d.a
  bFf := d.b
  pcFf := d.pc
  brimmFf := d.brImmed
  ppFf := d.predictP

/-- The prediction packet as E1 hands it on. -/
def predictE1 (d : ExuSlotIn) : PredictPkt := d.alu.predictPFf d.ap {}

/-- The ALU of E4 with the instruction of `d` and the operands that are there in the cycle of `l`. -/
def lateAlu (d l : ExuSlotIn) : Alu where
  validFf := true
  aFf := l.lateA
  bFf := l.lateB
  pcFf := d.pc
  brimmFf := d.brImmed
  ppFf := d.predictE1

end ExuSlotIn

namespace ExuSlot

variable {s : ExuSlot} {d l i : ExuSlotIn} {sec : Bool}

/-- E1 holds the instruction that was decoded with the ports `d`. -/
structure InE1 (s : ExuSlot) (d : ExuSlotIn) : Prop where
  ap : s.apE1 = d.ap
  brImmed : s.brImmedE1 = d.brImmed
  pc : s.aluE1.pcFf = d.pc
  pp : s.aluE1.ppFf = d.predictP
  valid : s.aluE1.validFf = d.aluDecode
  alu : d.aluDecode = true → s.aluE1 = d.alu

/-- What a stage hands on of the instruction it holds. -/
structure Regs where
  ap : AluPkt
  brImmed : BitVec 12
  pp : PredictPkt
  misaligned : Bool
  path : BitVec 31

/-- The registers belong to the instruction that was decoded with the ports `d`. -/
structure Regs.Of (r : Regs) (d : ExuSlotIn) : Prop where
  ap : r.ap = d.ap
  brImmed : r.brImmed = d.brImmed
  pp : r.pp = d.predictE1
  misaligned : r.misaligned = d.alu.targetMisaligned d.ap {}
  path : d.aluDecode = true → r.path = d.alu.flushPath d.ap

/-- What E1 hands on. -/
def regsE1 (s : ExuSlot) (i : ExuSlotIn) : Regs where
  ap := s.apE1
  brImmed := s.brImmedE1
  pp := s.aluE1.predictPFf s.apE1 (aluE1In i)
  misaligned := s.aluE1.targetMisaligned s.apE1 (aluE1In i)
  path := s.flushPathE1

/-- What E2 hands on. -/
def regsE2 (s : ExuSlot) : Regs := ⟨s.apE2, s.brImmedE2, s.ppE2, s.targetMisalignedE2, s.flushPathUpperE2⟩

/-- What E3 hands on. -/
def regsE3 (s : ExuSlot) : Regs := ⟨s.apE3, s.brImmedE3, s.ppE3, s.targetMisalignedE3, s.flushPathUpperE3⟩

/-- E4 holds it, and it came there in the cycle of `l`; `sec` says whether it is resolved there. -/
structure InE4 (s : ExuSlot) (d l : ExuSlotIn) (sec : Bool) : Prop where
  ap : s.apE4 = d.ap
  decode : s.secDecodeE4 = sec
  pp : s.aluE4.ppFf = d.predictE1
  misaligned : s.targetMisalignedUpperE4 = d.alu.targetMisaligned d.ap {}
  path : d.aluDecode = true → s.flushPathUpperE4 = d.alu.flushPath d.ap
  early : sec = false → s.aluE4.validFf = false
  late : sec = true → s.aluE4 = d.lateAlu l

/-! ## Steps -/

/-- An instruction decode issues is in E1 behind the cycle. -/
theorem inE1_next (hen : i.e1CtlEn = true) (hde : i.e1DataEn = true) (hz : i.freeze = false)
    (hf : i.flushFinal = false) : InE1 (s.next i) i := by
  constructor
  · simp [next, hen]
  · simp [next, hde]
  · simp [next, Alu.next, aluE1In, hen]
  · simp [next, Alu.next, aluE1In, hen]
  · simp [next, Alu.next, aluE1In, hz, hf]
  · intro ha
    simp [next, Alu.next, aluE1In, ExuSlotIn.alu, hen, hz, hf, ha]

/-- In a freeze E1 keeps it. -/
theorem InE1.hold (h : InE1 s d) (hen : i.e1CtlEn = false) (hde : i.e1DataEn = false) (hz : i.freeze = true) :
    InE1 (s.next i) d := by
  have halu : (s.next i).aluE1 = s.aluE1 := by simp [next, Alu.next, aluE1In, hen, hz]
  constructor
  · simp [next, hen, h.ap]
  · simp [next, hde, h.brImmed]
  · rw [halu, h.pc]
  · rw [halu, h.pp]
  · rw [halu, h.valid]
  · intro ha
    rw [halu, h.alu ha]

/-- What the ALU of E1 says of the instruction it holds. -/
theorem InE1.predict (h : InE1 s d) (hf : i.flushFinal = false) :
    s.aluE1.predictPFf s.apE1 (aluE1In i) = d.predictE1 := by
  cases ha : d.aluDecode with
  | true =>
    rw [h.alu ha, h.ap]
    simp [Alu.predictPFf, ExuSlotIn.predictE1, aluE1In, hf]
  | false => simp [Alu.predictPFf, ExuSlotIn.predictE1, ExuSlotIn.alu, h.valid, h.pp, ha]

@[inherit_doc InE1.predict]
theorem InE1.targetMisaligned (h : InE1 s d) (hf : i.flushFinal = false) (hz : i.freeze = false) :
    s.aluE1.targetMisaligned s.apE1 (aluE1In i) = d.alu.targetMisaligned d.ap {} := by
  rw [Alu.targetMisaligned_calm hf hz, Alu.targetMisaligned_calm rfl rfl]
  cases ha : d.aluDecode with
  | true => rw [h.alu ha, h.ap]
  | false => simp [ExuSlotIn.alu, h.valid, ha]

/-- What E1 hands on belongs to the instruction it holds. -/
theorem InE1.regs (h : InE1 s d) (hz : i.freeze = false) (hf : i.flushFinal = false) : (s.regsE1 i).Of d where
  ap := h.ap
  brImmed := h.brImmed
  pp := h.predict hf
  misaligned := h.targetMisaligned hf hz
  path := by
    intro ha
    rw [regsE1, flushPathE1, h.alu ha, h.ap]

/-- E2 takes what E1 hands on, or keeps what it has. -/
theorem regsE2_next (h : i.e2DataEn = i.e2CtlEn) :
    (s.next i).regsE2 = if i.e2CtlEn then s.regsE1 i else s.regsE2 := by
  unfold regsE2 regsE1 next
  rw [h]
  cases i.e2CtlEn <;> rfl

/-- E3 takes what E2 hands on, or keeps what it has. -/
theorem regsE3_next (h : i.e3DataEn = i.e3CtlEn) :
    (s.next i).regsE3 = if i.e3CtlEn then s.regsE2 else s.regsE3 := by
  unfold regsE3 regsE2 next
  rw [h]
  cases i.e3CtlEn <;> rfl

/-- From E3 the instruction moves to E4, and its late operands are those of the cycle. -/
theorem inE4_next (h : s.regsE3.Of d) (hen : i.e4CtlEn = true) (hz : i.freeze = false) (hf : i.flushLower = false)
    (hpc : i.pcE3 = d.pc) : InE4 (s.next i) d i i.secDecodeE3 := by
  have hap : s.apE3 = d.ap := h.ap
  have himm : s.brImmedE3 = d.brImmed := h.brImmed
  have hpp : s.ppE3 = d.predictE1 := h.pp
  have hmis : s.targetMisalignedE3 = d.alu.targetMisaligned d.ap {} := h.misaligned
  constructor
  · simp [next, hen, hap]
  · rfl
  · simp [next, Alu.next, aluE4In, hen, hz, hpp]
  · simp [next, hen, hmis]
  · intro ha
    have hpath : s.flushPathUpperE3 = d.alu.flushPath d.ap := h.path ha
    simp [next, hen, hpath]
  · intro hs
    simp [next, Alu.next, aluE4In, hs]
  · intro hs
    simp [next, Alu.next, aluE4In, ExuSlotIn.lateAlu, hen, hz, hf, hs, hpc, hpp, himm]

/-! ## E4 -/

/-- The ALU that resolves the branch: that of E1, or that of E4 with the late operands. -/
def resolver (d l : ExuSlotIn) (sec : Bool) : Alu := if sec then d.lateAlu l else d.alu

/-- A late branch is resolved with the operand of E4, any other with that of decode. -/
theorem resolver_aFf : (resolver d l sec).aFf = if sec then l.lateA else d.a := by
  cases sec <;> rfl

/-- The second operand is chosen in the same way. -/
theorem resolver_bFf : (resolver d l sec).bFf = if sec then l.lateB else d.b := by
  cases sec <;> rfl

/-- A jump is resolved as one, late or not. -/
theorem resolver_anyJal :
    (resolver d l sec).anyJal d.ap = (d.ap.jal || d.predictP.pcall || d.predictP.pja || d.predictP.pret) := by
  cases sec <;> rfl

/-- The prediction packet in E4 names the jump and says whether the resolving ALU took it. -/
theorem InE4.predict (h : InE4 s d l sec) (hres : d.aluDecode = !sec) :
    (s.predictPE4 i).pcall = d.predictP.pcall ∧ (s.predictPE4 i).pja = d.predictP.pja ∧
      (s.predictPE4 i).pret = d.predictP.pret ∧
      (s.predictPE4 i).ataken = (resolver d l sec).actualTaken d.ap := by
  unfold predictPE4
  rw [h.ap]
  cases sec with
  | true =>
    rw [h.late rfl]
    exact ⟨rfl, rfl, rfl, rfl⟩
  | false =>
    have hpp := h.pp
    refine ⟨?_, ?_, ?_, ?_⟩
    · exact (congrArg PredictPkt.pcall hpp : s.aluE4.ppFf.pcall = d.predictE1.pcall)
    · exact (congrArg PredictPkt.pja hpp : s.aluE4.ppFf.pja = d.predictE1.pja)
    · exact (congrArg PredictPkt.pret hpp : s.aluE4.ppFf.pret = d.predictE1.pret)
    · have hataken : (s.aluE4.predictPFf d.ap (s.aluE4In i)).ataken = s.aluE4.ppFf.ataken := by
        simp [Alu.predictPFf, h.early rfl]
      have hdec : d.alu.validFf = true := hres
      rw [hataken, hpp, ExuSlotIn.predictE1, Alu.predictPFf, hdec]
      rfl

/-- What E4 takes for a taken branch, the resolving ALU has taken. -/
theorem InE4.taken (h : InE4 s d l sec) (hres : d.aluDecode = !sec) (ht : s.takenControlE4 i = true) :
    (resolver d l sec).actualTaken d.ap = true := by
  obtain ⟨hcall, hja, hret, hataken⟩ := h.predict (i := i) hres
  simp only [takenControlE4, h.ap, hcall, hja, hret, hataken, Bool.or_eq_true, Bool.and_eq_true] at ht
  rcases ht with ht | ⟨-, ht⟩
  · rw [Alu.actualTaken, resolver_anyJal]
    simp only [Bool.or_eq_true]
    exact Or.inr ht
  · exact ht

/-- In E4 the path is that of the resolving ALU. -/
theorem InE4.flushPath (h : InE4 s d l sec) (hres : d.aluDecode = !sec) :
    s.flushPathE4Eff = (resolver d l sec).flushPath d.ap := by
  rw [flushPathE4Eff, h.decode, h.ap]
  cases sec with
  | true =>
    rw [h.late rfl]
    rfl
  | false => exact h.path hres

/-- In E4 a misaligned target is reported exactly when the resolving ALU takes the branch and the path it computes is
misaligned. -/
theorem InE4.instMisalignedE4 (h : InE4 s d l sec) (hres : d.aluDecode = !sec) (hf : i.flushLower = false) :
    s.instMisalignedE4 i =
      ((resolver d l sec).actualTaken d.ap && ((resolver d l sec).flushPath d.ap).getLsbD 0) := by
  have hfirst : (if s.secDecodeE4 then s.aluE4.targetMisaligned s.apE4 (s.aluE4In i) else s.targetMisalignedUpperE4) =
      ((resolver d l sec).actualTaken d.ap && ((resolver d l sec).flushPath d.ap).getLsbD 0) := by
    rw [h.decode, h.ap]
    cases sec with
    | true =>
      rw [if_pos rfl, Alu.targetMisaligned_calm hf rfl, h.late rfl]
      rfl
    | false =>
      have hdec : d.alu.validFf = true := hres
      rw [if_neg (by decide), h.misaligned, Alu.targetMisaligned_calm rfl rfl, hdec, Bool.true_and]
      rfl
  rw [ExuSlot.instMisalignedE4, hfirst, targetMisalignedE4Recheck, h.flushPath hres]
  cases ht : s.takenControlE4 i with
  | true =>
    rw [h.taken hres ht]
    cases i.validE4 <;> simp
  | false => simp

end ExuSlot

end SocRV
