import SocRV.Core.LongOp

/-!
# The floating-point state

The floating-point registers, `fflags`, `frm` and the field FS of `mstatus`, with what reads them in decode and what
writes them in write-back: the instruction bits that accompany a pair, the CSR fields of its packet, the answer of the
floating-point unit, and the write enables.  The rest of the core is the one of `Core/Pipeline`; its inputs that depend
on this state are driven by it.  The results of the integer pipeline and of `fpnew` are inputs.
-/

namespace SocRV

/-! ## Which CSRs wait -/

/-- The addresses of the CSRs with floating-point state. -/
def csrFflags : BitVec 12 := 0x001

@[inherit_doc csrFflags]
def csrFrm : BitVec 12 := 0x002

@[inherit_doc csrFflags]
def csrFcsr : BitVec 12 := 0x003

@[inherit_doc csrFflags]
def csrMstatus : BitVec 12 := 0x300

/-- `presync` of `dec_tlu_ctl`, of `dec_csr_rdaddr_d`. -/
def csrPresync (addr : BitVec 12) : Bool :=
  let a := addr.getLsbD
  (a 10 && a 4 && a 3 && a 0) || (a 6 && !a 5 && a 4 && !a 2 && !a 1) ||
    (!a 6 && !a 5 && !a 4 && !a 3 && !a 2 && a 1) || (a 10 && !a 4 && !a 3 && a 0) ||
    (a 11 && !a 4 && !a 3 && a 1 && !a 0) || (a 11 && !a 4 && !a 3 && a 2 && !a 1) ||
    (a 7 && !a 5 && !a 4 && !a 3 && !a 2 && a 1)

/-- `postsync` of `dec_tlu_ctl`. -/
def csrPostsync (addr : BitVec 12) : Bool :=
  let a := addr.getLsbD
  (a 10 && a 4 && a 3 && a 0) || (!a 11 && !a 5 && !a 4 && a 2 && a 0) ||
    (!a 11 && !a 6 && !a 5 && !a 2 && !a 0) || (!a 7 && a 6 && !a 1 && a 0) || (a 10 && !a 4 && !a 3 && a 0) ||
    (a 10 && !a 4 && a 2) || (!a 11 && a 7 && !a 5 && !a 3 && !a 2 && !a 1) || (a 10 && !a 4 && !a 3 && a 1)

namespace DecPkt

variable (dp : DecPkt)

/-- `any_csr_d`. -/
def anyCsr : Bool := dp.csrRead || dp.csrWrite

/-- `dec_csr_wen_unq_d`. -/
def csrWenUnq : Bool := dp.csrClr || dp.csrSet || dp.csrWrite

end DecPkt

/-- The CSR fields of `dest_pkt_t`. -/
structure CsrPkt where
  wen : Bool := false
  wonly : Bool := false
  waddr : BitVec 12 := 0
  deriving DecidableEq, Repr

/-! ## Registers and ports -/

/-- The registers of the core with the floating-point state.  `fpuFflags` is `dec_fpu_fflags`. -/
structure FpCpu where
  cpu : Cpu
  i0InstE1 : BitVec 32 := 0
  i0InstE2 : BitVec 32 := 0
  i0InstE3 : BitVec 32 := 0
  i0InstE4 : BitVec 32 := 0
  i0InstWb : BitVec 32 := 0
  divInst : BitVec 32 := 0
  fpuInst : BitVec 32 := 0
  csrE1 : CsrPkt := {}
  csrE2 : CsrPkt := {}
  csrE3 : CsrPkt := {}
  csrE4 : CsrPkt := {}
  csrWb : CsrPkt := {}
  fpuResultHold : BitVec 32 := 0
  fpuRdHold : BitVec 5 := 0
  fpuWritesFprHold : Bool := false
  fpuFflags : BitVec 5 := 0
  i0ResultWbRaw : BitVec 32 := 0
  triggerHitWb : Bool := false
  i0ValidWb : Bool := false
  fpr : BitVec 5 → BitVec 32 := fun _ => 0
  mstatusFs : BitVec 2 := 0
  fflags : BitVec 5 := 0
  frm : BitVec 3 := 0

/-- The inputs of a core cycle: those of the core, the result and the flags of `fpnew`, the result of slot `i0` in E4,
what `write_csr_data` holds, and `rfpc_postsync`. -/
structure FpCpuIn where
  cpu : CpuIn := {}
  fpResult : BitVec 32 := 0
  fpStatus : BitVec 5 := 0
  i0ResultE4Final : BitVec 32 := 0
  writeCsrData : BitVec 32 := 0
  rfpcPostsync : Bool := false

/-- `request_tag`: whether the result goes to the integer or the floating-point registers, and to which. -/
def Fpu.requestTag (s : Fpu) : BitVec 7 :=
  BitVec.ofBool (fpWritesGpr s.instQ) ++ BitVec.ofBool (!fpWritesGpr s.instQ) ++ s.instQ.extractLsb' 7 5

/-- `fpnew` answers only what it has accepted, with the tag of the request. -/
def Fpu.AnswersTagged (s : Fpu) (i : FpuIn) : Prop := i.fpOutValid = true → s.activeQ = true ∧ i.fpTag = s.requestTag

instance (s : Fpu) (i : FpuIn) : Decidable (s.AnswersTagged i) :=
  inferInstanceAs (Decidable (i.fpOutValid = true → s.activeQ = true ∧ i.fpTag = s.requestTag))

/-- `i0[11:7]`, `i0[19:15]`, `i0[24:20]` and `i0[31:27]`. -/
def instRd (i : BitVec 32) : BitVec 5 := i.extractLsb' 7 5

@[inherit_doc instRd]
def instRs1 (i : BitVec 32) : BitVec 5 := i.extractLsb' 15 5

@[inherit_doc instRd]
def instRs2 (i : BitVec 32) : BitVec 5 := i.extractLsb' 20 5

@[inherit_doc instRd]
def instRs3 (i : BitVec 32) : BitVec 5 := i.extractLsb' 27 5

namespace FpCpu

variable (s : FpCpu) (i : FpCpuIn)

/-! ## Decode -/

/-- `fload_e1` to `fload_wb`, of the packet and the instruction bits of the stage. -/
def fload (d : DestPkt) (inst : BitVec 32) : Bool := d.i0valid && fpload inst

/-- One of the operands of `inst` is what the load of the stage writes. -/
def floadHits (inst : BitVec 32) (d : DestPkt) (loadInst : BitVec 32) : Bool :=
  fload d loadInst &&
    (instRd loadInst == instRs1 inst || instRd loadInst == instRs2 inst || instRd loadInst == instRs3 inst)

/-- `fpr_hazard_stall`. -/
def fprHazardStall (inst : BitVec 32) : Bool :=
  (fpOp inst || fpstore inst) &&
    (floadHits inst s.cpu.dec.e1d s.i0InstE1 || floadHits inst s.cpu.dec.e2d s.i0InstE2 ||
      floadHits inst s.cpu.dec.e3d s.i0InstE3 || floadHits inst s.cpu.dec.e4d s.i0InstE4 ||
      floadHits inst s.cpu.dec.wbd s.i0InstWb)

/-- `prior_csr_write`. -/
def priorCsrWrite : Bool := s.csrE1.wonly || s.csrE2.wonly || s.csrE3.wonly || s.csrE4.wonly || s.csrWb.wonly

/-- `dec_tlu_fp_enabled`. -/
def fpEnabled : Bool := s.mstatusFs != 0

/-- The inputs of decode that are the floating-point state. -/
def decFp : DecIn := { i.cpu.dec with fpEnabled := s.fpEnabled, frm := s.frm }

/-- `i0_dp`. -/
def i0dp : DecPkt := Dec.i0dp (s.decFp i)

/-- `dec_csr_rdaddr_d`, which is also the address of a write. -/
def csrAddr (i : FpCpuIn) : BitVec 12 := i.cpu.dec.i0.instr.extractLsb' 20 12

/-- The inputs of the core as far as they do not come from the floating-point state. -/
def cpuIn : CpuIn :=
  { i.cpu with
    dec := { s.decFp i with
      i0Hazard := i.cpu.dec.i0Hazard || ((s.i0dp i).csrRead && s.priorCsrWrite) || s.fprHazardStall i.cpu.dec.i0.instr
      presyncD := csrPresync (csrAddr i) && (s.i0dp i).anyCsr && !(s.i0dp i).csrWenUnq
      postsyncD := (csrPostsync (csrAddr i) && (s.i0dp i).anyCsr) || i.rfpcPostsync } }

/-- The ports of `dec_decode_ctl`. -/
def decIn : DecIn := s.cpu.decIn (s.cpuIn i)

/-- `dec_i0_decode_d`. -/
def i0DecodeD : Bool := s.cpu.dec.i0DecodeD (s.decIn i)

/-- `i0_legal_decode_d`. -/
def i0LegalDecodeD : Bool := s.cpu.dec.i0LegalDecodeD (s.decIn i)

/-- The CSR fields of `dd`. -/
def csrDd : CsrPkt where
  wen := (s.i0dp i).csrWenUnq && s.i0LegalDecodeD i
  wonly := (s.i0dp i).csrWrite && !(s.i0dp i).csrRead && s.i0DecodeD i
  waddr := csrAddr i

/-- `dec_csr_rddata_d`, of the CSRs with floating-point state; of `mstatus` the fields SD and FS. -/
def csrRddata (addr : BitVec 12) : BitVec 32 :=
  if addr = csrFflags then s.fflags.zeroExtend 32
  else if addr = csrFrm then s.frm.zeroExtend 32
  else if addr = csrFcsr then (s.frm ++ s.fflags).zeroExtend 32
  else BitVec.ofBool (s.mstatusFs == 3) ++ 0#16 ++ s.mstatusFs ++ 0#13

/-! ## Write-back -/

/-- `dec_tlu_i0_kill_writeb_wb`. -/
def kill : Bool := s.cpu.tlu.i0KillWritebWb

/-- `i0_result_wb`. -/
def i0ResultWb : BitVec 32 :=
  if s.cpu.dec.fpuWenWb then s.fpuResultHold else if s.cpu.dec.divWenWb then s.cpu.div.out else s.i0ResultWbRaw

/-- `fpload_wen_wb`. -/
def fploadWenWb : Bool := s.cpu.dec.wbd.i0valid && fpload s.i0InstWb && !s.kill

/-- `fpr_wen`. -/
def fprWen : Bool := (s.cpu.dec.fpuWenWb && s.fpuWritesFprHold && !s.kill) || s.fploadWenWb

/-- `fpr_waddr`. -/
def fprWaddr : BitVec 5 := if s.cpu.dec.fpuWenWb && s.fpuWritesFprHold then s.fpuRdHold else instRd s.i0InstWb

/-- `fpr_wdata`. -/
def fprWdata : BitVec 32 := if s.cpu.dec.fpuWenWb && s.fpuWritesFprHold then s.fpuResultHold else s.i0ResultWb

/-- `dec_fpu_fflags_valid`. -/
def fpuFflagsValid : Bool := s.cpu.dec.fpuWenWb && !s.kill

/-- `dec_fpu_dirty`. -/
def fpuDirty : Bool := s.fprWen || s.fpuFflagsValid

/-- `dec_csr_wen_wb_mod`. -/
def csrWenWbMod : Bool := s.csrWb.wen && s.cpu.dec.wbd.i0valid && !s.kill && !s.triggerHitWb

/-- `dec_csr_wrdata_wb`. -/
def csrWrdataWb : BitVec 32 := if s.csrWb.wonly then s.i0ResultWb else i.writeCsrData

/-- `wr_mstatus_wb` and its likes. -/
def wrCsrWb (addr : BitVec 12) : Bool := s.csrWenWbMod && s.csrWb.waddr == addr

/-- `mstatus_fs_ns`. -/
def mstatusFsNs : BitVec 2 :=
  if s.wrCsrWb csrMstatus then (s.csrWrdataWb i).extractLsb' 13 2
  else if s.fpuDirty || s.wrCsrWb csrFflags || s.wrCsrWb csrFrm || s.wrCsrWb csrFcsr then 3
  else s.mstatusFs

/-- `fflags_ns`. -/
def fflagsNs : BitVec 5 :=
  (if s.wrCsrWb csrFcsr then (s.csrWrdataWb i).extractLsb' 0 5
    else if s.wrCsrWb csrFflags then (s.csrWrdataWb i).extractLsb' 0 5 else s.fflags) |||
  (if s.fpuFflagsValid then s.fpuFflags else 0)

/-- `frm_ns`. -/
def frmNs : BitVec 3 :=
  if s.wrCsrWb csrFcsr then (s.csrWrdataWb i).extractLsb' 5 3
  else if s.wrCsrWb csrFrm then (s.csrWrdataWb i).extractLsb' 0 3 else s.frm

/-! ## One cycle -/

/-- `e3d_in`, of the CSR fields. -/
def csrE3In : CsrPkt := if (s.decIn i).freeze then {} else s.csrE3

/-- `e4d_in`, of the CSR fields. -/
def csrE4In : CsrPkt := if (s.decIn i).exuDivFinish || (s.decIn i).fpuRespValid then {} else s.csrE4

/-- The ports of the trap unit. -/
def tluIn : TluIn := s.cpu.tluIn (s.cpuIn i)

/-- `fpu_resp_valid`. -/
def fpuRespValid : Bool := (s.decIn i).fpuRespValid

/-- The registers after a core cycle; the instruction bits follow the data enables, the CSR fields the control enables
of the packets. -/
def next : FpCpu :=
  let dec := s.cpu.dec
  let d := s.decIn i
  { cpu := s.cpu.next (s.cpuIn i)
    i0InstE1 := rvdffs (dec.i0E1DataEn d) i.cpu.dec.i0.instr s.i0InstE1
    i0InstE2 := rvdffs (dec.i0E2DataEn d) s.i0InstE1 s.i0InstE2
    i0InstE3 := rvdffs (dec.i0E3DataEn d) s.i0InstE2 s.i0InstE3
    i0InstE4 := rvdffs (dec.i0E4DataEn d) s.i0InstE3 s.i0InstE4
    i0InstWb := rvdffs (dec.i0PipeEn1 || d.clkOverride || d.exuDivFinish || d.fpuRespValid)
      (if d.exuDivFinish then s.divInst else if d.fpuRespValid then s.fpuInst else s.i0InstE4) s.i0InstWb
    divInst := rvdffs (dec.i0DivDecodeD d) i.cpu.dec.i0.instr s.divInst
    fpuInst := rvdffs (dec.i0FpuDecodeD d) i.cpu.dec.i0.instr s.fpuInst
    csrE1 := rvdffs (dec.i0E1CtlEn d) (s.csrDd i) s.csrE1
    csrE2 := rvdffs (dec.i0E2CtlEn d) s.csrE1 s.csrE2
    csrE3 := rvdffs (dec.i0E3CtlEn d) s.csrE2 s.csrE3
    csrE4 := rvdffs (dec.i0E4CtlEn d) (s.csrE3In i) s.csrE4
    csrWb := rvdffs (dec.i0WbCtlEn d || d.exuDivFinish || dec.divWenWb || d.fpuRespValid || dec.fpuWenWb)
      (s.csrE4In i) s.csrWb
    fpuResultHold := rvdffs d.fpuRespValid i.fpResult s.fpuResultHold
    fpuRdHold := rvdffs d.fpuRespValid d.fpuRd s.fpuRdHold
    fpuWritesFprHold := rvdffs d.fpuRespValid (i.cpu.fpu.fpTag.getLsbD 5) s.fpuWritesFprHold
    fpuFflags := rvdffs d.fpuRespValid i.fpStatus s.fpuFflags
    i0ResultWbRaw := rvdffs (dec.i0PipeEn1 || d.clkOverride) i.i0ResultE4Final s.i0ResultWbRaw
    triggerHitWb := rvdffs (s.cpu.tlu.e4e5IntEn (s.tluIn i)) (s.cpu.tlu.triggerHitE4 (s.tluIn i)) s.triggerHitWb
    i0ValidWb := rvdffs (s.cpu.tlu.e4e5IntEn (s.tluIn i))
      (s.cpu.tlu.tluI0CommitCmt (s.tluIn i) && !s.cpu.tlu.illegalE4 (s.tluIn i)) s.i0ValidWb
    fpr := if s.fprWen then Function.update s.fpr s.fprWaddr s.fprWdata else s.fpr
    mstatusFs := s.mstatusFsNs i
    fflags := s.fflagsNs i
    frm := s.frmNs i }

/-- The core from reset, on a DCCM with given contents. -/
def machine (m : DccmMem) : Machine FpCpu FpCpuIn := ⟨{ cpu := { mem := m } }, next⟩

/-- The core is that of `Core/Pipeline`, on the inputs the floating-point state drives. -/
theorem run_cpu (m : DccmMem) (w : Nat → FpCpuIn) (n : Nat) :
    ((machine m).run w n).cpu = (Cpu.machine m).run (fun k => ((machine m).run w k).cpuIn (w k)) n := by
  induction n with
  | zero => rfl
  | succ n ih =>
    rw [Machine.run_succ, Machine.run_succ, ← ih]
    rfl

/-! ## Driving the core -/

/-- A DCCM of zeros. -/
def blankDccm : DccmMem := { bankMem := fun _ _ => 0 }

/-- An instruction presented alone in slot `i0`, with `ra` at the start of the DCCM. -/
def present (instr : BitVec 32) : FpCpuIn :=
  { cpu :=
      { dec := { i0 := { valid := true, instr := instr, pc := 0x40 }, csrLegalD := true }
        lsu := { lsc := { rs1D := 0x20000 } } } }

/-- A cycle without an instruction, with a result for the one in E4. -/
def idleWith (result : BitVec 32) : FpCpuIn := { i0ResultE4Final := result }

end FpCpu

end SocRV
