import SocRV.Core.Alu

/-!
# The branch pipeline of the execution unit

`exu` resolves a branch in E1, or in E4 when its operands come late, and carries what E1 found (the other path, the
prediction, the alignment of the target) down to E4, where the trap unit asks for it.  The registers of each stage are
loaded once more behind the last instruction, with whatever stands in the stage before, so they may hold the data of
an instruction that was never decoded.
-/

namespace SocRV

/-- The registers of one slot. -/
structure ExuSlot where
  aluE1 : Alu := {}
  aluE4 : Alu := {}
  apE1 : AluPkt := {}
  apE2 : AluPkt := {}
  apE3 : AluPkt := {}
  apE4 : AluPkt := {}
  ppE2 : PredictPkt := {}
  ppE3 : PredictPkt := {}
  targetMisalignedE2 : Bool := false
  targetMisalignedE3 : Bool := false
  targetMisalignedUpperE4 : Bool := false
  flushUpperE2 : Bool := false
  flushPathUpperE2 : BitVec 31 := 0
  flushPathUpperE3 : BitVec 31 := 0
  flushPathUpperE4 : BitVec 31 := 0
  brImmedE1 : BitVec 12 := 0
  brImmedE2 : BitVec 12 := 0
  brImmedE3 : BitVec 12 := 0
  predCorrectUpperE2 : Bool := false
  predCorrectUpperE3 : Bool := false
  predCorrectUpperE4 : Bool := false
  secDecodeE4 : Bool := false

/-- The ports of one slot: the instruction in decode with its operands, the operands that reach E4 late, the enables
of the stages, the freeze and the flushes. -/
structure ExuSlotIn where
  ap : AluPkt := {}
  predictP : PredictPkt := {}
  a : BitVec 32 := 0
  b : BitVec 32 := 0
  pc : BitVec 31 := 0
  brImmed : BitVec 12 := 0
  aluDecode : Bool := false
  lateA : BitVec 32 := 0
  lateB : BitVec 32 := 0
  pcE3 : BitVec 31 := 0
  secDecodeE3 : Bool := false
  validE4 : Bool := false
  e1CtlEn : Bool := false
  e2CtlEn : Bool := false
  e3CtlEn : Bool := false
  e4CtlEn : Bool := false
  e1DataEn : Bool := false
  e2DataEn : Bool := false
  e3DataEn : Bool := false
  freeze : Bool := false
  flushFinal : Bool := false
  flushLower : Bool := false

namespace ExuSlot

variable (s : ExuSlot) (i : ExuSlotIn)

/-- The ports of `i0_alu_e1`. -/
def aluE1In (i : ExuSlotIn) : AluIn where
  predictP := i.predictP
  freeze := i.freeze
  a := i.a
  b := i.b
  pc := i.pc
  valid := i.aluDecode
  flush := i.flushFinal
  brimm := i.brImmed
  enable := i.e1CtlEn

/-- The ports of `i0_alu_e4`. -/
def aluE4In : AluIn where
  predictP := if i.freeze then {} else s.ppE3
  freeze := false
  a := i.lateA
  b := i.lateB
  pc := i.pcE3
  valid := i.secDecodeE3
  flush := i.flushLower
  brimm := s.brImmedE3
  enable := i.e4CtlEn

/-- `exu_i0_flush_path_e1`. -/
def flushPathE1 : BitVec 31 := s.aluE1.flushPath s.apE1

/-- `exu_i0_flush_upper_e1`. -/
def flushUpperE1 : Bool := s.aluE1.flushUpper s.apE1 (aluE1In i)

/-- `exu_i0_flush_lower_e4`. -/
def flushLowerE4 : Bool := s.aluE4.flushUpper s.apE4 (s.aluE4In i)

/-- `i0_predict_p_e4`. -/
def predictPE4 : PredictPkt := s.aluE4.predictPFf s.apE4 (s.aluE4In i)

/-- `i0_flush_path_e4_eff`. -/
def flushPathE4Eff : BitVec 31 := if s.secDecodeE4 then s.aluE4.flushPath s.apE4 else s.flushPathUpperE4

/-- `i0_pred_correct_e4_eff`. -/
def predCorrectE4Eff : Bool := if s.secDecodeE4 then s.aluE4.predCorrect s.apE4 else s.predCorrectUpperE4

/-- `i0_taken_control_e4`. -/
def takenControlE4 : Bool :=
  let pp := s.predictPE4 i
  s.apE4.jal || pp.pcall || pp.pja || pp.pret ||
    ((s.apE4.beq || s.apE4.bne || s.apE4.blt || s.apE4.bge) && pp.ataken)

/-- `i0_target_misaligned_e4_recheck`. -/
def targetMisalignedE4Recheck : Bool := i.validE4 && s.takenControlE4 i && s.flushPathE4Eff.getLsbD 0

/-- `exu_i0_inst_misaligned_e4`. -/
def instMisalignedE4 : Bool :=
  (if s.secDecodeE4 then s.aluE4.targetMisaligned s.apE4 (s.aluE4In i) else s.targetMisalignedUpperE4) ||
    s.targetMisalignedE4Recheck i

/-- The registers after a core cycle. -/
def next : ExuSlot where
  aluE1 := s.aluE1.next (aluE1In i)
  aluE4 := s.aluE4.next (s.aluE4In i)
  apE1 := rvdffs i.e1CtlEn i.ap s.apE1
  apE2 := rvdffs i.e2CtlEn s.apE1 s.apE2
  apE3 := rvdffs i.e3CtlEn s.apE2 s.apE3
  apE4 := rvdffs i.e4CtlEn s.apE3 s.apE4
  ppE2 := rvdffs i.e2CtlEn (s.aluE1.predictPFf s.apE1 (aluE1In i)) s.ppE2
  ppE3 := rvdffs i.e3CtlEn s.ppE2 s.ppE3
  targetMisalignedE2 := rvdffs i.e2CtlEn (s.aluE1.targetMisaligned s.apE1 (aluE1In i)) s.targetMisalignedE2
  targetMisalignedE3 := rvdffs i.e3CtlEn s.targetMisalignedE2 s.targetMisalignedE3
  targetMisalignedUpperE4 := rvdffs i.e4CtlEn s.targetMisalignedE3 s.targetMisalignedUpperE4
  flushUpperE2 := rvdffs i.e2CtlEn (s.flushUpperE1 i) s.flushUpperE2
  flushPathUpperE2 := rvdffs i.e2CtlEn s.flushPathE1 s.flushPathUpperE2
  flushPathUpperE3 := rvdffs i.e3CtlEn s.flushPathUpperE2 s.flushPathUpperE3
  flushPathUpperE4 := rvdffs i.e4CtlEn s.flushPathUpperE3 s.flushPathUpperE4
  brImmedE1 := rvdffs i.e1DataEn i.brImmed s.brImmedE1
  brImmedE2 := rvdffs i.e2DataEn s.brImmedE1 s.brImmedE2
  brImmedE3 := rvdffs i.e3DataEn s.brImmedE2 s.brImmedE3
  predCorrectUpperE2 := rvdffs (!i.freeze) (s.aluE1.predCorrect s.apE1) s.predCorrectUpperE2
  predCorrectUpperE3 := rvdffs (!i.freeze) s.predCorrectUpperE2 s.predCorrectUpperE3
  predCorrectUpperE4 := s.predCorrectUpperE3
  secDecodeE4 := i.secDecodeE3

end ExuSlot

/-- The registers of both slots and those only one of them has. -/
structure Exu where
  i0 : ExuSlot := {}
  i1 : ExuSlot := {}
  i0FlushUpperE3 : Bool := false
  i0FlushUpperE4 : Bool := false
  i1ValidE2 : Bool := false
  i1ValidE3 : Bool := false
  i1ValidE4 : Bool := false
  predCorrectNpcE3 : BitVec 31 := 0
  predCorrectNpcE4 : BitVec 31 := 0
  divNpc : BitVec 31 := 0

/-- The ports of both slots and the signals only one of them has. -/
structure ExuIn where
  i0 : ExuSlotIn := {}
  i1 : ExuSlotIn := {}
  i1ValidE1 : Bool := false
  predCorrectNpcE2 : BitVec 31 := 0
  divValidE1 : Bool := false
  divFinishEarly : Bool := false
  divFinish : Bool := false

namespace Exu

variable (s : Exu) (i : ExuIn)

/-- `exu_i0_flush_final`. -/
def i0FlushFinal (flushLower freeze : Bool) : Bool := flushLower || (s.i0.flushUpperE2 && !freeze)

/-- `exu_i1_flush_final`. -/
def i1FlushFinal (flushLower freeze : Bool) : Bool := flushLower || (s.i1.flushUpperE2 && !freeze)

/-- `exu_flush_final`. -/
def flushFinal (flushLower freeze : Bool) : Bool :=
  flushLower || ((s.i0.flushUpperE2 || s.i1.flushUpperE2) && !freeze)

/-- `i1_valid_e4_eff`. -/
def i1ValidE4Eff : Bool := s.i1ValidE4 && !(if s.i0.secDecodeE4 then s.i0.flushLowerE4 i.i0 else s.i0FlushUpperE4)

/-- `npc_e4`. -/
def npcE4 : BitVec 31 :=
  if s.i1ValidE4Eff i then
    (if s.i1.predCorrectE4Eff then s.predCorrectNpcE4 else s.i1.flushPathE4Eff)
  else (if s.i0.predCorrectE4Eff then s.predCorrectNpcE4 else s.i0.flushPathE4Eff)

/-- `exu_npc_e4`: the divider has a path of its own, the floating-point unit has not. -/
def exuNpcE4 : BitVec 31 :=
  if i.divFinishEarly then s.i0.flushPathE1 else if i.divFinish then s.divNpc else s.npcE4 i

/-- The registers after a core cycle. -/
def next : Exu where
  i0 := s.i0.next i.i0
  i1 := s.i1.next i.i1
  i0FlushUpperE3 := rvdffs i.i0.e3CtlEn s.i0.flushUpperE2 s.i0FlushUpperE3
  i0FlushUpperE4 := rvdffs i.i0.e4CtlEn (s.i0FlushUpperE3 && !i.i0.freeze) s.i0FlushUpperE4
  i1ValidE2 := rvdffs i.i1.e2CtlEn i.i1ValidE1 s.i1ValidE2
  i1ValidE3 := rvdffs i.i1.e3CtlEn s.i1ValidE2 s.i1ValidE3
  i1ValidE4 := rvdffs i.i1.e4CtlEn (s.i1ValidE3 && !i.i1.freeze) s.i1ValidE4
  predCorrectNpcE3 := rvdffs i.i0.e3CtlEn i.predCorrectNpcE2 s.predCorrectNpcE3
  predCorrectNpcE4 := rvdffs i.i0.e4CtlEn s.predCorrectNpcE3 s.predCorrectNpcE4
  divNpc := rvdffs i.divValidE1 s.i0.flushPathE1 s.divNpc

end Exu

end SocRV
