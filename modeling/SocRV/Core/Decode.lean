import SocRV.Core.Alu
import SocRV.Core.DecDecCtl

/-!
# Decode and the packets it sends down the pipeline

`dec_decode_ctl` takes up to two instructions a cycle from the instruction buffer, blocks the ones that have to
wait, and carries a destination packet and a trap packet with each pair from E1 to write-back.  The registers up to
E3 hold while the load/store unit freezes the pipeline; E4 and write-back always move.  A division and a
floating-point operation pass through the pipeline once and complete later, when their unit says so.

The register dependences that delay an instruction (bypass, load and multiply hazards) are inputs, and so are the
signals of the other units.
-/

namespace SocRV

/-- The fields of `br_pkt_t` decode looks at. -/
structure BrPkt where
  valid : Bool := false
  toffset : BitVec 12 := 0
  hist1 : Bool := false
  brError : Bool := false
  brStartError : Bool := false
  prett : BitVec 31 := 0
  ret : Bool := false
  deriving DecidableEq, Repr

/-- What the instruction buffer presents for one slot. -/
structure IbSlot where
  valid : Bool := false
  instr : BitVec 32 := 0
  pc : BitVec 31 := 0
  pc4 : Bool := true
  icaf : Bool := false
  dbecc : Bool := false
  perr : Bool := false
  sbecc : Bool := false
  brp : BrPkt := {}
  deriving DecidableEq, Repr

namespace IbSlot

variable (x : IbSlot) (dp : DecPkt) (leak1 decode : Bool)

/-- `i0_dp_raw`. -/
def dpRaw : DecPkt := decDecCtl x.instr

/-- `i0r.rd`. -/
def rd : BitVec 5 := x.instr.extractLsb' 7 5

/-- `i0r.rs1`. -/
def rs1 : BitVec 5 := x.instr.extractLsb' 15 5

/-- `i0_pcall_imm[20:1]`. -/
def pcallImm : BitVec 20 :=
  x.instr.extractLsb' 31 1 ++ x.instr.extractLsb' 12 8 ++ x.instr.extractLsb' 20 1 ++ x.instr.extractLsb' 21 10

/-- `i0_pcall_12b_offset`. -/
def pcall12bOffset : Bool :=
  if x.pcallImm.getLsbD 11 then x.pcallImm.extractLsb' 12 8 == 0xff#8 else x.pcallImm.extractLsb' 12 8 == 0#8

/-- `i0_pcall_case`. -/
def pcallCase : Bool := x.pcall12bOffset && x.dpRaw.imm20 && x.rd != 0

/-- `i0_pja_case`. -/
def pjaCase : Bool := x.pcall12bOffset && x.dpRaw.imm20 && x.rd == 0

/-- `i0_pret_case`. -/
def pretCase : Bool := x.dpRaw.jal && x.dpRaw.imm12 && x.rd == 0 && x.rs1 == 1

/-- `i0_pcall`, of the raw packet or the final one. -/
def pcall : Bool := dp.jal && x.pcallCase

/-- `i0_pja`. -/
def pja : Bool := dp.jal && x.pjaCase

/-- `i0_pret`. -/
def pret : Bool := dp.jal && x.pretCase

/-- `i0_jal`: a jump the predictor cannot follow. -/
def jal : Bool := dp.jal && !x.pcallCase && !x.pjaCase && !x.pretCase

/-- `i0_br_offset`. -/
def brOffset : BitVec 12 :=
  if x.pcall x.dpRaw || x.pja x.dpRaw then x.pcallImm.extractLsb' 0 12
  else x.instr.extractLsb' 31 1 ++ x.instr.extractLsb' 7 1 ++ x.instr.extractLsb' 25 6 ++ x.instr.extractLsb' 8 4

/-- `i0_brp_valid`. -/
def brpValid : Bool := x.brp.valid && !leak1

/-- `i0_br_error`: the predictor took the instruction for a branch it is not. -/
def brError : Bool :=
  x.brp.brError ||
  (x.brpValid leak1 && !(x.dpRaw.condbr || x.pcall x.dpRaw || x.pja x.dpRaw || x.pret x.dpRaw)) ||
  (x.brpValid leak1 && x.brp.hist1 && x.brp.toffset != x.brOffset && !x.pret x.dpRaw) ||
  (x.brpValid leak1 && x.brp.ret && !x.pret x.dpRaw)

/-- `i0_br_error_all`. -/
def brErrorAll : Bool := (x.brError leak1 || x.brp.brStartError) && !leak1

/-- `i0_icaf_d`. -/
def icafD : Bool := x.icaf || x.dbecc

/-- `i0_instr_error`. -/
def instrError : Bool := x.icafD || x.perr || x.sbecc

/-- `i0_predict_p_d`. -/
def predictP : PredictPkt where
  pcall := x.pcall dp
  pja := x.pja dp
  pret := x.pret dp
  prett := x.brp.prett
  valid := x.brpValid leak1 && decode
  brError := x.brError leak1 && decode && !leak1
  brStartError := x.brp.brStartError && decode && !leak1

/-- `i0_predict_br`. -/
def predictBr : Bool := dp.condbr || x.pcall dp || x.pja dp || x.pret dp

/-- `i0_ap`: none of it waits for the instruction to be decoded. -/
def ap : AluPkt where
  sub := dp.sub
  unsign := dp.unsign
  beq := dp.beq
  bne := dp.bne
  blt := dp.blt
  bge := dp.bge
  jal := x.jal dp
  predictNt := !(x.brp.hist1 && x.brpValid leak1) && x.predictBr dp
  predictT := x.brp.hist1 && x.brpValid leak1 && x.predictBr dp

/-- The length of the instruction as an offset, `{10'b0, pc4, pc2}`. -/
def lengthOffset : BitVec 12 := if x.pc4 then 2 else 1

/-- `dec_i0_br_immed_d`. -/
def brImmed : BitVec 12 := if (x.ap dp leak1).predictNt && !dp.jal then x.brOffset else x.lengthOffset

end IbSlot

/-! ## Packets -/

/-- `dest_pkt_t`, without the fields of the result and CSR paths.  `seq` is not in the source: it is the cycle in which
the pair was decoded, so that statements can name it. -/
structure DestPkt where
  i0rd : BitVec 5 := 0
  i0load : Bool := false
  i0store : Bool := false
  i0div : Bool := false
  i0fpu : Bool := false
  i0v : Bool := false
  i0valid : Bool := false
  i0secondary : Bool := false
  i1rd : BitVec 5 := 0
  i1load : Bool := false
  i1store : Bool := false
  i1v : Bool := false
  i1valid : Bool := false
  i1secondary : Bool := false
  seq : Nat := 0
  deriving DecidableEq, Repr

/-- The kinds of `inst_t` the trap unit asks for. -/
inductive Itype where
  | other
  | ebreak
  | ecall
  | mret
  deriving DecidableEq, Repr

/-- The fields of `trap_pkt_t` that raise a trap, apart from the triggers. -/
structure TrapPkt where
  legal : Bool := false
  icaf : Bool := false
  fenceI : Bool := false
  itype : Itype := .other
  deriving DecidableEq, Repr

/-- `i0_itype`: of the assignments the last one that applies wins. -/
def DecPkt.itype (dp : DecPkt) : Itype :=
  if dp.jal || dp.condbr then .other
  else if dp.mret then .mret
  else if dp.fenceI || dp.fence then .other
  else if dp.ecall then .ecall
  else if dp.ebreak then .ebreak
  else .other

namespace DestPkt

variable (d : DestPkt)

/-- The valid bits of slot `i0` taken away by `k0` and those of slot `i1` by `k1`. -/
def kill (k0 k1 : Bool) : DestPkt :=
  { d with
    i0v := d.i0v && !k0
    i0valid := d.i0valid && !k0
    i0secondary := d.i0secondary && !k0
    i1v := d.i1v && !k1
    i1valid := d.i1valid && !k1
    i1secondary := d.i1secondary && !k1 }

/-- Slot `i0` holds a load or store. -/
def i0lsu : Bool := d.i0load || d.i0store

/-- Slot `i1` holds a load or store. -/
def i1lsu : Bool := d.i1load || d.i1store

end DestPkt

/-! ## Registers and ports -/

/-- The registers of `dec_decode_ctl`.  `i0PipeEn4` to `i0PipeEn0` are `i0_pipe_en[4:0]`; `divSeq`, `fpuSeq` and
`cycle` are not in the source. -/
structure Dec where
  e1d : DestPkt := {}
  e2d : DestPkt := {}
  e3d : DestPkt := {}
  e4d : DestPkt := {}
  wbd : DestPkt := {}
  e1t : TrapPkt := {}
  e2t : TrapPkt := {}
  e3t : TrapPkt := {}
  e4t : TrapPkt := {}
  i0PipeEn4 : Bool := false
  i0PipeEn3 : Bool := false
  i0PipeEn2 : Bool := false
  i0PipeEn1 : Bool := false
  i0PipeEn0 : Bool := false
  i1PipeEn4 : Bool := false
  i1PipeEn3 : Bool := false
  i1PipeEn2 : Bool := false
  i1PipeEn1 : Bool := false
  i1PipeEn0 : Bool := false
  i0FlushFinalE3 : Bool := false
  i1FlushFinalE3 : Bool := false
  psStall : Bool := false
  divStallFf : Bool := false
  fpuStallFf : Bool := false
  divWenWb : Bool := false
  fpuWenWb : Bool := false
  divPc : BitVec 31 := 0
  divWaddrWb : BitVec 5 := 0
  fpuPc : BitVec 31 := 0
  lastBrImmedE1 : BitVec 12 := 0
  lastBrImmedE2 : BitVec 12 := 0
  i0PcE2 : BitVec 31 := 0
  i0PcE3 : BitVec 31 := 0
  i0PcE4 : BitVec 31 := 0
  i1PcE2 : BitVec 31 := 0
  i1PcE3 : BitVec 31 := 0
  i1PcE4 : BitVec 31 := 0
  divSeq : Nat := 0
  fpuSeq : Nat := 0
  cycle : Nat := 0

/-- The inputs of a core cycle: what the instruction buffer presents, the hazards, the controls of the trap unit, and
the signals of the other units. -/
structure DecIn where
  i0 : IbSlot := {}
  i1 : IbSlot := {}
  i0Hazard : Bool := false
  i1Hazard : Bool := false
  i0Late : Bool := false
  i1Late : Bool := false
  i0TriggerMatch : Bool := false
  leak1Mode : Bool := false
  presyncD : Bool := false
  postsyncD : Bool := false
  pipeliningDisable : Bool := false
  fpEnabled : Bool := false
  frm : BitVec 3 := 0
  csrLegalD : Bool := false
  clkOverride : Bool := false
  lsuLoadStallAny : Bool := false
  lsuStoreStallAny : Bool := false
  freeze : Bool := false
  flushLowerWb : Bool := false
  exuI0FlushFinal : Bool := false
  exuI1FlushFinal : Bool := false
  exuI0PcE1 : BitVec 31 := 0
  exuI1PcE1 : BitVec 31 := 0
  exuDivStall : Bool := false
  exuDivFinish : Bool := false
  fpuReqReady : Bool := false
  fpuBusy : Bool := false
  fpuRespValid : Bool := false
  fpuWritesGpr : Bool := false
  fpuRd : BitVec 5 := 0

namespace Dec

variable (s : Dec) (i : DecIn)

/-! ## The two instructions in decode -/

/-- `i0_dp`. -/
def i0dp (i : DecIn) : DecPkt :=
  i0Dp i.i0.instr i.fpEnabled i.frm (i.i0.brErrorAll i.leak1Mode || i.i0.instrError)

/-- `i1_dp`. -/
def i1dp (i : DecIn) : DecPkt := i1Dp i.i1.instr (i.i1.brErrorAll false)

/-- `i0_secondary_d`: an ALU operation whose operands come too late for E1. -/
def i0SecondaryD (i : DecIn) : Bool := (i0dp i).alu && i.i0Late

/-- `i1_secondary_d`. -/
def i1SecondaryD (i : DecIn) : Bool := (i1dp i).alu && i.i1Late

/-- `flush_final_e3`. -/
def flushFinalE3 : Bool := s.i0FlushFinalE3 || s.i1FlushFinalE3

/-- `prior_inflight_e1e3`. -/
def priorInflightE1e3 : Bool :=
  s.e1d.i0valid || s.e2d.i0valid || s.e3d.i0valid || s.e1d.i1valid || s.e2d.i1valid || s.e3d.i1valid

/-- `prior_inflight_e1e4`. -/
def priorInflightE1e4 : Bool := s.priorInflightE1e3 || s.e4d.i0valid || s.e4d.i1valid

/-- `prior_inflight`. -/
def priorInflight : Bool := s.priorInflightE1e4 || s.wbd.i0valid || s.wbd.i1valid

/-- `i0_csr_write_only_d`. -/
def i0CsrWriteOnlyD (i : DecIn) : Bool := (i0dp i).csrWrite && !(i0dp i).csrRead

/-- `i0_presync`. -/
def i0Presync (i : DecIn) : Bool := (i0dp i).presync || i.presyncD || i.pipeliningDisable

/-- `i0_postsync`. -/
def i0Postsync (i : DecIn) : Bool :=
  (i0dp i).postsync || i.postsyncD || (i0CsrWriteOnlyD i && i.i0.instr.extractLsb' 20 12 == 0x7c2#12)

/-- `presync_stall`. -/
def presyncStall : Bool := i0Presync i && (if (i0dp i).div then s.priorInflightE1e3 else s.priorInflight)

/-- `postsync_stall`. -/
def postsyncStall : Bool := s.psStall || (i.exuDivStall || s.divStallFf) || (i.fpuBusy || s.fpuStallFf)

/-- `i0_block_d`.  `i0Hazard` stands for the terms of the CSR, pause, debug, fence, load, multiply, secondary and FPR
hazards. -/
def i0BlockD : Bool :=
  i.i0Hazard || s.postsyncStall i || s.presyncStall i || ((i0dp i).store && i.lsuStoreStallAny) ||
    ((i0dp i).load && i.lsuLoadStallAny) || ((i0dp i).fpu && !i.fpuReqReady)

/-- `i1_block_d`.  `i1Hazard` stands for the terms of the register hazards and of the disabled dual issue. -/
def i1BlockD (i : DecIn) : Bool :=
  i.i1Hazard || i.leak1Mode || i.i0.jal (i0dp i) ||
  ((i.i0TriggerMatch || (((i0dp i).condbr || (i0dp i).jal) && i0SecondaryD i)) && (i1dp i).load) ||
  i0Presync i || i0Postsync i || (i1dp i).presync || (i1dp i).postsync ||
  i.i1.icafD || i.i1.perr || i.i1.sbecc ||
  (i0dp i).csrRead || (i0dp i).csrWrite || (i1dp i).csrRead || (i1dp i).csrWrite ||
  ((i1dp i).store && i.lsuStoreStallAny) || ((i1dp i).lsu && (i0dp i).lsu) || ((i1dp i).mul && (i0dp i).mul) ||
  ((i1dp i).load && i.lsuLoadStallAny) || fpAny i.i1.instr

/-- `i0_legal`. -/
def i0Legal (i : DecIn) : Bool := (i0dp i).legal && (!((i0dp i).csrRead || (i0dp i).csrWrite) || i.csrLegalD)

/-- `dec_i0_decode_d`. -/
def i0DecodeD : Bool := i.i0.valid && !s.i0BlockD i && !i.flushLowerWb && !s.flushFinalE3 && !i.freeze

/-- `i0_legal_decode_d`. -/
def i0LegalDecodeD : Bool := s.i0DecodeD i && i0Legal i && !i.freeze

/-- `dec_i1_decode_d`. -/
def i1DecodeD : Bool := s.i0LegalDecodeD i && i.i1.valid && (i1dp i).legal && !i1BlockD i && !i.freeze

/-! ## What decode tells the other units -/

/-- `dec_i0_alu_decode_d`. -/
def i0AluDecodeD : Bool := s.i0LegalDecodeD i && (i0dp i).alu && !i0SecondaryD i

/-- `dec_i1_alu_decode_d`. -/
def i1AluDecodeD : Bool := s.i1DecodeD i && (i1dp i).alu && !i1SecondaryD i

/-- `dec_i0_lsu_decode_d`. -/
def i0LsuDecodeD : Bool := s.i0LegalDecodeD i && (i0dp i).lsu

/-- `lsu_decode_d`. -/
def lsuDecodeD : Bool := (s.i0LegalDecodeD i && (i0dp i).lsu) || (s.i1DecodeD i && (i1dp i).lsu)

/-- `div_decode_d`. -/
def divDecodeD : Bool := (s.i0LegalDecodeD i && (i0dp i).div) || (s.i1DecodeD i && (i1dp i).div)

/-- `i0_div_decode_d`. -/
def i0DivDecodeD : Bool := s.i0LegalDecodeD i && (i0dp i).div

/-- `i0_fpu_decode_d`. -/
def i0FpuDecodeD : Bool := s.i0LegalDecodeD i && (i0dp i).fpu

/-- `dec_tlu_i0_valid_e4`. -/
def tluI0ValidE4 : Bool :=
  (s.e4d.i0valid && !s.e4d.i0div && !s.e4d.i0fpu && !i.flushLowerWb) || i.exuDivFinish || i.fpuRespValid

/-- `dec_tlu_i1_valid_e4`. -/
def tluI1ValidE4 : Bool := s.e4d.i1valid && !i.flushLowerWb

/-- `dec_tlu_packet_e4`. -/
def tluPacketE4 : TrapPkt :=
  if i.exuDivFinish || i.fpuRespValid then { legal := true } else s.e4t

/-- `dec_tlu_i0_pc_e4`. -/
def tluI0PcE4 : BitVec 31 := if i.exuDivFinish then s.divPc else if i.fpuRespValid then s.fpuPc else s.i0PcE4

/-- `dec_i0_sec_decode_e3`. -/
def i0SecDecodeE3 : Bool := s.e3d.i0secondary && !i.flushLowerWb && !i.freeze

/-- `dec_i1_sec_decode_e3`. -/
def i1SecDecodeE3 : Bool := s.e3d.i1secondary && !s.i0FlushFinalE3 && !i.flushLowerWb && !i.freeze

/-- `pred_correct_npc_e2`. -/
def predCorrectNpcE2 : BitVec 31 :=
  rvbradder (if s.e2d.i1valid then s.i1PcE2 else s.i0PcE2) s.lastBrImmedE2

/-- `last_br_immed_d`. -/
def lastBrImmedD : BitVec 12 :=
  if s.i1DecodeD i then
    (if (i.i1.ap (i1dp i) false).predictNt then i.i1.lengthOffset else i.i1.brOffset)
  else (if (i.i0.ap (i0dp i) i.leak1Mode).predictNt then i.i0.lengthOffset else i.i0.brOffset)

/-! ## Register enables -/

/-- `i0_e1_ctl_en`. -/
def i0E1CtlEn : Bool := (s.i0DecodeD i || s.i0PipeEn4 || i.clkOverride) && !i.freeze

/-- `i0_e2_ctl_en`. -/
def i0E2CtlEn : Bool := (s.i0PipeEn4 || s.i0PipeEn3 || i.clkOverride) && !i.freeze

/-- `i0_e3_ctl_en`. -/
def i0E3CtlEn : Bool := (s.i0PipeEn3 || s.i0PipeEn2 || i.clkOverride) && !i.freeze

/-- `i0_e4_ctl_en`. -/
def i0E4CtlEn : Bool := s.i0PipeEn2 || s.i0PipeEn1 || i.clkOverride

/-- `i0_wb_ctl_en`. -/
def i0WbCtlEn : Bool := s.i0PipeEn1 || s.i0PipeEn0 || i.clkOverride

/-- `i0_e1_data_en`. -/
def i0E1DataEn : Bool := (s.i0DecodeD i || i.clkOverride) && !i.freeze

/-- `i0_e2_data_en`. -/
def i0E2DataEn : Bool := (s.i0PipeEn4 || i.clkOverride) && !i.freeze

/-- `i0_e3_data_en`. -/
def i0E3DataEn : Bool := (s.i0PipeEn3 || i.clkOverride) && !i.freeze

/-- `i0_e4_data_en`. -/
def i0E4DataEn : Bool := s.i0PipeEn2 || i.clkOverride

/-- `i1_e1_ctl_en`. -/
def i1E1CtlEn : Bool := (s.i1DecodeD i || s.i1PipeEn4 || i.clkOverride) && !i.freeze

/-- `i1_e2_ctl_en`. -/
def i1E2CtlEn : Bool := (s.i1PipeEn4 || s.i1PipeEn3 || i.clkOverride) && !i.freeze

/-- `i1_e3_ctl_en`. -/
def i1E3CtlEn : Bool := (s.i1PipeEn3 || s.i1PipeEn2 || i.clkOverride) && !i.freeze

/-- `i1_e4_ctl_en`. -/
def i1E4CtlEn : Bool := s.i1PipeEn2 || s.i1PipeEn1 || i.clkOverride

/-- `i1_e1_data_en`. -/
def i1E1DataEn : Bool := (s.i1DecodeD i || i.clkOverride) && !i.freeze

/-- `i1_e2_data_en`. -/
def i1E2DataEn : Bool := (s.i1PipeEn4 || i.clkOverride) && !i.freeze

/-- `i1_e3_data_en`. -/
def i1E3DataEn : Bool := (s.i1PipeEn3 || i.clkOverride) && !i.freeze

/-- `i1_e4_data_en`. -/
def i1E4DataEn : Bool := s.i1PipeEn2 || i.clkOverride

/-! ## The packets that enter each stage -/

/-- `dd`. -/
def dd : DestPkt where
  i0rd := i.i0.rd
  i0load := (i0dp i).load && s.i0LegalDecodeD i
  i0store := (i0dp i).store && s.i0LegalDecodeD i
  i0div := (i0dp i).div && s.i0LegalDecodeD i
  i0fpu := (i0dp i).fpu && s.i0LegalDecodeD i
  i0v := (i0dp i).rd && i.i0.rd != 0 && s.i0LegalDecodeD i
  i0valid := s.i0DecodeD i
  i0secondary := i0SecondaryD i && s.i0LegalDecodeD i
  i1rd := i.i1.rd
  i1load := (i1dp i).load
  i1store := (i1dp i).store
  i1v := (i1dp i).rd && i.i1.rd != 0 && s.i1DecodeD i
  i1valid := s.i1DecodeD i
  i1secondary := i1SecondaryD i && s.i1DecodeD i
  seq := s.cycle

/-- `dt`. -/
def dt : TrapPkt where
  legal := s.i0LegalDecodeD i
  icaf := i.i0.icafD && s.i0LegalDecodeD i
  fenceI := (i0dp i).fenceI && s.i0LegalDecodeD i
  itype := if s.i0LegalDecodeD i then (i0dp i).itype else .other

/-- `e1d_in`. -/
def e1dIn : DestPkt := s.e1d.kill s.flushFinalE3 s.flushFinalE3

/-- `e2d_in`. -/
def e2dIn : DestPkt := s.e2d.kill (s.flushFinalE3 || i.flushLowerWb) (s.flushFinalE3 || i.flushLowerWb)

/-- `e3d_in`. -/
def e3dIn : DestPkt :=
  if i.freeze then {} else s.e3d.kill i.flushLowerWb (s.i0FlushFinalE3 || i.flushLowerWb)

/-- `e3t_in`. -/
def e3tIn : TrapPkt := if i.freeze || i.flushLowerWb then {} else s.e3t

/-- `e4d_in`: when a long operation completes, its own destination; the slot `i1` next to it is kept, and its
`i1secondary` comes from E3. -/
def e4dIn : DestPkt :=
  let base := if i.exuDivFinish || i.fpuRespValid then {} else s.e4d
  { base with
    i0rd := if i.exuDivFinish then s.divWaddrWb else if i.fpuRespValid then i.fpuRd else s.e4d.i0rd
    i0v := (s.e4d.i0v && !s.e4d.i0div && !s.e4d.i0fpu && !i.flushLowerWb) ||
      (i.exuDivFinish && s.divWaddrWb != 0) || (i.fpuRespValid && i.fpuWritesGpr && i.fpuRd != 0)
    i0valid := (s.e4d.i0valid && !s.e4d.i0fpu && !i.flushLowerWb) || i.exuDivFinish || i.fpuRespValid
    i0secondary := s.e4d.i0secondary && !i.flushLowerWb && !i.exuDivFinish && !i.fpuRespValid
    i0load := s.e4d.i0load && !i.flushLowerWb && !i.exuDivFinish && !i.fpuRespValid
    i0store := s.e4d.i0store && !i.flushLowerWb && !i.exuDivFinish && !i.fpuRespValid
    i1v := s.e4d.i1v && !i.flushLowerWb
    i1valid := s.e4d.i1valid && !i.flushLowerWb
    i1secondary := s.e3d.i1secondary && !i.flushLowerWb
    seq := if i.exuDivFinish then s.divSeq else if i.fpuRespValid then s.fpuSeq else s.e4d.seq }

/-- The write port of slot `i0`, `i0_wen_wb`. -/
def i0WenWb (i0Kill i1Kill : Bool) : Bool :=
  s.wbd.i0v && !(!i1Kill && s.wbd.i0v && s.wbd.i1v && s.wbd.i0rd == s.wbd.i1rd) && !i0Kill

/-- The write port of slot `i1`, `i1_wen_wb`. -/
def i1WenWb (i1Kill : Bool) : Bool := s.wbd.i1v && !i1Kill

/-- `ps_stall_in`. -/
def psStallIn : Bool :=
  (s.i0DecodeD i && (i.i0.jal (i0dp i) || i0Postsync i || !i0Legal i)) ||
  (s.i1DecodeD i && i.i1.jal (i1dp i)) ||
  (s.psStall && s.priorInflightE1e4 && !(s.divWenWb || s.fpuWenWb))

/-- The registers after a core cycle. -/
def next : Dec where
  e1d := rvdffs (s.i0E1CtlEn i) (s.dd i) s.e1d
  e2d := rvdffs (s.i0E2CtlEn i) s.e1dIn s.e2d
  e3d := rvdffs (s.i0E3CtlEn i) (s.e2dIn i) s.e3d
  e4d := rvdffs (s.i0E4CtlEn i) (s.e3dIn i) s.e4d
  wbd := rvdffs (s.i0WbCtlEn i || i.exuDivFinish || s.divWenWb || i.fpuRespValid || s.fpuWenWb) (s.e4dIn i) s.wbd
  e1t := rvdffs (s.i0E1CtlEn i) (s.dt i) s.e1t
  e2t := rvdffs (s.i0E2CtlEn i) s.e1t s.e2t
  e3t := rvdffs (s.i0E3CtlEn i) s.e2t s.e3t
  e4t := rvdffs (s.i0E4CtlEn i) (s.e3tIn i) s.e4t
  i0PipeEn4 := rvdffs (!i.freeze) (s.i0DecodeD i) s.i0PipeEn4
  i0PipeEn3 := rvdffs (!i.freeze) s.i0PipeEn4 s.i0PipeEn3
  i0PipeEn2 := rvdffs (!i.freeze) s.i0PipeEn3 s.i0PipeEn2
  i0PipeEn1 := s.i0PipeEn2
  i0PipeEn0 := s.i0PipeEn1
  i1PipeEn4 := rvdffs (!i.freeze) (s.i1DecodeD i) s.i1PipeEn4
  i1PipeEn3 := rvdffs (!i.freeze) s.i1PipeEn4 s.i1PipeEn3
  i1PipeEn2 := rvdffs (!i.freeze) s.i1PipeEn3 s.i1PipeEn2
  i1PipeEn1 := s.i1PipeEn2
  i1PipeEn0 := s.i1PipeEn1
  i0FlushFinalE3 := rvdffs (!i.freeze) i.exuI0FlushFinal s.i0FlushFinalE3
  i1FlushFinalE3 := rvdffs (!i.freeze) i.exuI1FlushFinal s.i1FlushFinalE3
  psStall := rvdffs (!i.freeze) (s.psStallIn i) s.psStall
  divStallFf := i.exuDivStall
  fpuStallFf := i.fpuBusy
  divWenWb := i.exuDivFinish
  fpuWenWb := i.fpuRespValid
  divPc := rvdffs (s.i0DivDecodeD i) i.i0.pc s.divPc
  divWaddrWb := rvdffs (s.i0DivDecodeD i) i.i0.rd s.divWaddrWb
  fpuPc := rvdffs (s.i0FpuDecodeD i) i.i0.pc s.fpuPc
  lastBrImmedE1 := rvdffs (s.i0E1DataEn i) (s.lastBrImmedD i) s.lastBrImmedE1
  lastBrImmedE2 := rvdffs (s.i0E2DataEn i) s.lastBrImmedE1 s.lastBrImmedE2
  i0PcE2 := rvdffs (s.i0E2DataEn i) i.exuI0PcE1 s.i0PcE2
  i0PcE3 := rvdffs (s.i0E3DataEn i) s.i0PcE2 s.i0PcE3
  i0PcE4 := rvdffs (s.i0E4DataEn i) s.i0PcE3 s.i0PcE4
  i1PcE2 := rvdffs (s.i1E2DataEn i) i.exuI1PcE1 s.i1PcE2
  i1PcE3 := rvdffs (s.i1E3DataEn i) s.i1PcE2 s.i1PcE3
  i1PcE4 := rvdffs (s.i1E4DataEn i) s.i1PcE3 s.i1PcE4
  divSeq := rvdffs (s.i0DivDecodeD i) s.cycle s.divSeq
  fpuSeq := rvdffs (s.i0FpuDecodeD i) s.cycle s.fpuSeq
  cycle := s.cycle + 1

end Dec

end SocRV
