import SocRV.Core.Primitives

/-!
# The ALU as a branch unit

`exu_alu_ctl` stands twice in each slot: in E1, and in E4 for the instructions whose operands come late.  It
resolves branches and jumps: whether one is taken, where the other path goes on, whether the prediction was right
and whether the target is aligned.  The results it computes stay in the datapath and are not modelled.  Addresses
are without their lowest bit, so bit 0 of a `BitVec 31` is bit 1 of the source's `[31:1]`.
-/

namespace SocRV

/-- The fields of `alu_pkt_t` that decide control flow. -/
structure AluPkt where
  sub : Bool := false
  unsign : Bool := false
  beq : Bool := false
  bne : Bool := false
  blt : Bool := false
  bge : Bool := false
  jal : Bool := false
  predictT : Bool := false
  predictNt : Bool := false
  deriving DecidableEq, Repr

/-- The fields of `predict_pkt_t` that are not for the branch predictor alone. -/
structure PredictPkt where
  misp : Bool := false
  ataken : Bool := false
  valid : Bool := false
  brError : Bool := false
  brStartError : Bool := false
  prett : BitVec 31 := 0
  pcall : Bool := false
  pret : Bool := false
  pja : Bool := false
  deriving DecidableEq, Repr

/-- The registers of `exu_alu_ctl`. -/
structure Alu where
  validFf : Bool := false
  aFf : BitVec 32 := 0
  bFf : BitVec 32 := 0
  pcFf : BitVec 31 := 0
  brimmFf : BitVec 12 := 0
  ppFf : PredictPkt := {}
  deriving DecidableEq, Repr

/-- The ports of `exu_alu_ctl` that are registered, and the two that gate its outputs. -/
structure AluIn where
  predictP : PredictPkt := {}
  freeze : Bool := false
  a : BitVec 32 := 0
  b : BitVec 32 := 0
  pc : BitVec 31 := 0
  valid : Bool := false
  flush : Bool := false
  brimm : BitVec 12 := 0
  enable : Bool := false

namespace Alu

variable (s : Alu) (ap : AluPkt) (i : AluIn)

/-- `bm`. -/
def bm : BitVec 32 := if ap.sub then ~~~s.bFf else s.bFf

/-- `{cout, aout}`. -/
def sum : BitVec 33 := s.aFf.zeroExtend 33 + (s.bm ap).zeroExtend 33 + (if ap.sub then 1#33 else 0#33)

/-- `aout`. -/
def aout : BitVec 32 := (s.sum ap).extractLsb' 0 32

/-- `cout`. -/
def cout : Bool := (s.sum ap).msb

/-- `ov`. -/
def ov : Bool :=
  (!s.aFf.msb && !(s.bm ap).msb && (s.aout ap).msb) || (s.aFf.msb && (s.bm ap).msb && !(s.aout ap).msb)

/-- `lt`. -/
def lt : Bool := (!ap.unsign && ((s.aout ap).msb ^^ s.ov ap)) || (ap.unsign && !s.cout ap)

/-- `any_jal`. -/
def anyJal : Bool := ap.jal || s.ppFf.pcall || s.ppFf.pja || s.ppFf.pret

/-- `actual_taken`. -/
def actualTaken : Bool :=
  (ap.beq && s.aFf == s.bFf) || (ap.bne && !(s.aFf == s.bFf)) || (ap.blt && s.lt ap) || (ap.bge && !s.lt ap) ||
    s.anyJal ap

/-- `pcout`. -/
def pcout : BitVec 31 := rvbradder s.pcFf s.brimmFf

/-- `pred_correct`. -/
def predCorrect : Bool :=
  ((ap.predictNt && !s.actualTaken ap) || (ap.predictT && s.actualTaken ap)) && !s.anyJal ap

/-- `flush_path`. -/
def flushPath : BitVec 31 := if s.anyJal ap then (s.aout ap).extractLsb' 1 31 else s.pcout

/-- `target_misaligned`. -/
def targetMisaligned : Bool :=
  s.validFf && s.actualTaken ap && (s.flushPath ap).getLsbD 0 && !i.flush && !i.freeze

/-- `cond_mispredict`. -/
def condMispredict : Bool := (ap.predictT && !s.actualTaken ap) || (ap.predictNt && s.actualTaken ap)

/-- `target_mispredict`. -/
def targetMispredict : Bool := s.ppFf.pret && s.ppFf.prett != (s.aout ap).extractLsb' 1 31

/-- `flush_upper`. -/
def flushUpper : Bool :=
  (ap.jal || s.condMispredict ap || s.targetMispredict ap) && s.validFf && !i.flush && !i.freeze

/-- `predict_p_ff`. -/
def predictPFf : PredictPkt :=
  { s.ppFf with
    misp := if s.validFf then (s.condMispredict ap || s.targetMispredict ap) && !i.flush else s.ppFf.misp
    ataken := if s.validFf then s.actualTaken ap else s.ppFf.ataken }

/-- The registers after a core cycle. -/
def next : Alu where
  validFf := rvdffs (!i.freeze) (i.valid && !i.flush) s.validFf
  aFf := rvdffs (i.enable && i.valid) i.a s.aFf
  bFf := rvdffs (i.enable && i.valid) i.b s.bFf
  pcFf := rvdffs i.enable i.pc s.pcFf
  brimmFf := rvdffs i.enable i.brimm s.brimmFf
  ppFf := rvdffs i.enable i.predictP s.ppFf

end Alu

end SocRV
