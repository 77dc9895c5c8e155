import SocRV.Core.DivCtl
import SocRV.Core.Exu
import SocRV.Core.Fpu
import SocRV.Core.Tlu
import SocRV.Lsu.BusIntf
import SocRV.Lsu.Dccm

/-!
# The core

Decode, the execution unit, the divider, the floating-point unit's port, the trap unit and the load/store unit with
its bus interface, its store buffer and the DCCM, wired as `mycpu_core`, `dec` and `lsu` wire them.  One step is one
core cycle.  What the instruction buffer presents, the operands, the bus and the interrupt sources are inputs.
-/

namespace SocRV

/-- The registers of the core, and the DCCM. -/
structure Cpu where
  dec : Dec := {}
  exu : Exu := {}
  div : DivCtl := {}
  fpu : Fpu := {}
  tlu : Tlu := {}
  lsu : LsuBus := {}
  stbuf : Stbuf := {}
  mem : DccmMem
  dataHiDc3 : BitVec 32 := 0
  dataLoDc3 : BitVec 32 := 0
  resultCorrDc4 : BitVec 32 := 0
  resultDc5 : BitVec 32 := 0

/-- The inputs of a core cycle.  Of the inputs of a unit only those count that no other unit drives. -/
structure CpuIn where
  dec : DecIn := {}
  i0 : ExuSlotIn := {}
  i1 : ExuSlotIn := {}
  div : DivIn := {}
  fpu : FpuIn := {}
  tlu : TluIn := {}
  lsu : LsuBusIn := {}

namespace Cpu

variable (s : Cpu) (i : CpuIn)

/-! ## Flush, freeze and stalls -/

/-- `dec_tlu_flush_lower_wb`. -/
def flushLowerWb : Bool := s.tlu.flushLowerWb

/-- The flush lines of `lsu.sv`. -/
def flushes : Flushes where
  dc2Up := s.dec.flushFinalE3 || s.dec.i0FlushFinalE3 || s.flushLowerWb
  dc3 := (s.dec.flushFinalE3 && s.dec.i0FlushFinalE3) || s.flushLowerWb
  dc4 := s.flushLowerWb
  dc5 := s.tlu.i0KillWritebWb || (s.tlu.i1KillWritebWb && !s.lsu.lsc.i0ValidDc5)

/-- The load/store unit with the DCCM, without the bus. -/
def lsuMem : LsuMem where
  lsc := s.lsu.lsc
  stbuf := s.stbuf
  mem := s.mem
  dataHiDc3 := s.dataHiDc3
  dataLoDc3 := s.dataLoDc3
  resultCorrDc4 := s.resultCorrDc4
  resultDc5 := s.resultDc5

/-- The inputs of the load/store unit as far as they do not come from decode. -/
def lsuCtl : LsuBusIn :=
  { i.lsu with
    cancelE4 := s.tlu.cancelE4 i.tlu
    lsc := { i.lsu.lsc with flush := s.flushes, ldDataDc3 := s.lsuMem.ldDataDc3 } }

/-- `lsu_freeze_dc3`. -/
def freeze : Bool := s.lsu.freezeDc3 (s.lsuCtl i)

/-- `lsu_stbuf_full_any`. -/
def stbufFullAny : Bool := s.lsuMem.stbufFullAny (s.lsu.lscIn (s.lsuCtl i))

/-- `exu_div_finish`. -/
def divFinish : Bool := s.div.finish { i.div with flushLower := s.flushLowerWb }

/-- The ports of the floating-point unit as far as they do not come from decode. -/
def fpuCtl : FpuIn := { i.fpu with flush := s.dec.flushFinalE3 || s.flushLowerWb }

/-- `fpu_resp_valid`. -/
def fpuRespValid : Bool := Fpu.respValid (s.fpuCtl i)

/-! ## Decode -/

/-- The ports of `dec_decode_ctl`. -/
def decIn : DecIn :=
  { i.dec with
    lsuLoadStallAny := s.lsu.loadStallAny (s.lsuCtl i)
    lsuStoreStallAny := s.lsu.storeStallAny { s.lsuCtl i with stbufFullAny := s.stbufFullAny i }
    freeze := s.freeze i
    flushLowerWb := s.flushLowerWb
    exuI0FlushFinal := s.exu.i0FlushFinal s.flushLowerWb (s.freeze i)
    exuI1FlushFinal := s.exu.i1FlushFinal s.flushLowerWb (s.freeze i)
    exuI0PcE1 := s.exu.i0.aluE1.pcFf
    exuI1PcE1 := s.exu.i1.aluE1.pcFf
    exuDivStall := s.div.runState
    exuDivFinish := s.divFinish i
    fpuReqReady := s.fpu.reqReady
    fpuBusy := s.fpu.busy
    fpuRespValid := s.fpuRespValid i
    fpuWritesGpr := Fpu.writesGpr (s.fpuCtl i)
    fpuRd := Fpu.rd (s.fpuCtl i) }

/-- `lsu_p`; the bypass bits are inputs. -/
def lsuP : LsuPkt :=
  let i0dp := Dec.i0dp (s.decIn i)
  let i1dp := Dec.i1dp (s.decIn i)
  { i.lsu.lsc.p with
    valid := s.dec.lsuDecodeD (s.decIn i)
    load := if i0dp.lsu then i0dp.load else i1dp.load
    store := if i0dp.lsu then i0dp.store else i1dp.store
    byte := if i0dp.lsu then i0dp.byte else i1dp.byte
    half := if i0dp.lsu then i0dp.half else i1dp.half
    word := if i0dp.lsu then i0dp.word else i1dp.word
    unsign := if i0dp.lsu then i0dp.unsign else i1dp.unsign
    tag := s.dec.cycle }

/-- `dec_lsu_offset_d`. -/
def lsuOffsetD : BitVec 12 :=
  let i0dp := Dec.i0dp (s.decIn i)
  let i1dp := Dec.i1dp (s.decIn i)
  let storeOffset (x : BitVec 32) : BitVec 12 := x.extractLsb' 25 7 ++ x.extractLsb' 7 5
  (if i0dp.lsu && i0dp.load then i.dec.i0.instr.extractLsb' 20 12 else 0) |||
    (if !i0dp.lsu && i1dp.lsu && i1dp.load then i.dec.i1.instr.extractLsb' 20 12 else 0) |||
    (if i0dp.lsu && i0dp.store then storeOffset i.dec.i0.instr else 0) |||
    (if !i0dp.lsu && i1dp.lsu && i1dp.store then storeOffset i.dec.i1.instr else 0)

/-! ## The ports of the other units -/

/-- The ports of the load/store unit. -/
def lsuIn : LsuBusIn :=
  { s.lsuCtl i with
    lsc := { (s.lsuCtl i).lsc with
      p := s.lsuP i
      i0LsuDecodeD := s.dec.i0LsuDecodeD (s.decIn i)
      offsetD := s.lsuOffsetD i }
    stbufFullAny := s.stbufFullAny i }

/-- The ports of the divider. -/
def divIn : DivIn :=
  let i0dp := Dec.i0dp (s.decIn i)
  let i1dp := Dec.i1dp (s.decIn i)
  { i.div with
    valid := s.dec.divDecodeD (s.decIn i)
    unsign := if i0dp.div then i0dp.unsign else i1dp.unsign
    rem := if i0dp.div then i0dp.rem else i1dp.rem
    flushLower := s.flushLowerWb }

/-- The ports of the floating-point unit. -/
def fpuIn : FpuIn :=
  { s.fpuCtl i with reqValid := s.dec.i0FpuDecodeD (s.decIn i), inst := i.dec.i0.instr }

/-- The ports of slot `i0` of the execution unit. -/
def exuI0In : ExuSlotIn :=
  let d := s.decIn i
  { i.i0 with
    ap := d.i0.ap (Dec.i0dp d) d.leak1Mode
    predictP := d.i0.predictP (Dec.i0dp d) d.leak1Mode (s.dec.i0LegalDecodeD d)
    pc := d.i0.pc
    brImmed := d.i0.brImmed (Dec.i0dp d) d.leak1Mode
    aluDecode := s.dec.i0AluDecodeD d
    pcE3 := s.dec.i0PcE3
    secDecodeE3 := s.dec.i0SecDecodeE3 d
    validE4 := s.dec.tluI0ValidE4 d
    e1CtlEn := s.dec.i0E1CtlEn d
    e2CtlEn := s.dec.i0E2CtlEn d
    e3CtlEn := s.dec.i0E3CtlEn d
    e4CtlEn := s.dec.i0E4CtlEn d
    e1DataEn := s.dec.i0E1DataEn d
    e2DataEn := s.dec.i0E2DataEn d
    e3DataEn := s.dec.i0E3DataEn d
    freeze := s.freeze i
    flushFinal := s.exu.flushFinal s.flushLowerWb (s.freeze i)
    flushLower := s.flushLowerWb }

/-- The ports of slot `i1` of the execution unit. -/
def exuI1In : ExuSlotIn :=
  let d := s.decIn i
  { i.i1 with
    ap := d.i1.ap (Dec.i1dp d) false
    predictP := d.i1.predictP (Dec.i1dp d) false (s.dec.i1DecodeD d)
    pc := d.i1.pc
    brImmed := d.i1.brImmed (Dec.i1dp d) false
    aluDecode := s.dec.i1AluDecodeD d
    pcE3 := s.dec.i1PcE3
    secDecodeE3 := s.dec.i1SecDecodeE3 d
    validE4 := s.dec.tluI1ValidE4 d
    e1CtlEn := s.dec.i1E1CtlEn d
    e2CtlEn := s.dec.i1E2CtlEn d
    e3CtlEn := s.dec.i1E3CtlEn d
    e4CtlEn := s.dec.i1E4CtlEn d
    e1DataEn := s.dec.i1E1DataEn d
    e2DataEn := s.dec.i1E2DataEn d
    e3DataEn := s.dec.i1E3DataEn d
    freeze := s.freeze i
    flushFinal := s.exu.flushFinal s.flushLowerWb (s.freeze i)
    flushLower := s.flushLowerWb }

/-- The ports of the execution unit. -/
def exuIn : ExuIn where
  i0 := s.exuI0In i
  i1 := s.exuI1In i
  i1ValidE1 := s.dec.e1d.i1valid
  predCorrectNpcE2 := s.dec.predCorrectNpcE2
  divValidE1 := s.div.validFfE1
  divFinishEarly := s.div.smallnumCase (s.divIn i)
  divFinish := s.divFinish i

/-- `lsu_error_pkt_dc3`. -/
def lsuErrorPktDc3 : LsuErrorPkt where
  excValid := (s.lsu.lsc.accessFaultDc3 || s.lsu.lsc.misalignedFaultDc3 || s.lsu.ldBusErrorDc3 (s.lsuCtl i)) &&
    s.lsu.lsc.pktDc3.valid && !s.flushes.dc3
  instPipe := !s.lsu.lsc.i0ValidDc3

/-- The ports of the trap unit. -/
def tluIn : TluIn :=
  let pp0 := s.exu.i0.predictPE4 (s.exuI0In i)
  let pp1 := s.exu.i1.predictPE4 (s.exuI1In i)
  { i.tlu with
    i0ValidE4 := s.dec.tluI0ValidE4 (s.decIn i)
    i1ValidE4 := s.dec.tluI1ValidE4 (s.decIn i)
    packetE4 := s.dec.tluPacketE4 (s.decIn i)
    i0PcE4 := s.dec.tluI0PcE4 (s.decIn i)
    i1PcE4 := s.dec.i1PcE4
    i0BrErrorE4 := pp0.brError
    i0BrStartErrorE4 := pp0.brStartError
    i0BrMpE4 := pp0.misp
    i1BrErrorE4 := pp1.brError
    i1BrStartErrorE4 := pp1.brStartError
    i0FlushLowerE4 := s.exu.i0.flushLowerE4 (s.exuI0In i)
    i1FlushLowerE4 := s.exu.i1.flushLowerE4 (s.exuI1In i)
    i0InstMisalignedE4 := s.exu.i0.instMisalignedE4 (s.exuI0In i)
    i1InstMisalignedE4 := s.exu.i1.instMisalignedE4 (s.exuI1In i)
    exuNpcE4 := s.exu.exuNpcE4 (s.exuIn i)
    lsuErrorPktDc3 := s.lsuErrorPktDc3 i
    lsuFreezeDc3 := s.freeze i
    lsuFreezeExternalIntsDc3 := s.freeze i && s.lsu.lsc.isSideeffectsDc3 }

/-! ## One cycle -/

/-- The registers after a core cycle. -/
def next : Cpu :=
  let m := s.lsuMem.next (s.lsu.lscIn (s.lsuIn i))
  { dec := s.dec.next (s.decIn i)
    exu := s.exu.next (s.exuIn i)
    div := s.div.next (s.divIn i)
    fpu := s.fpu.next (s.fpuIn i)
    tlu := s.tlu.next (s.tluIn i)
    lsu := s.lsu.next (s.lsuIn i)
    stbuf := m.stbuf
    mem := m.mem
    dataHiDc3 := m.dataHiDc3
    dataLoDc3 := m.dataLoDc3
    resultCorrDc4 := m.resultCorrDc4
    resultDc5 := m.resultDc5 }

/-- The core from reset, on a DCCM with given contents. -/
def machine (m : DccmMem) : Machine Cpu CpuIn := ⟨{ mem := m }, next⟩

/-! ## What the units see of each other -/

variable {s : Cpu} {i : CpuIn}

@[simp] theorem lsuIn_flush : (s.lsuIn i).lsc.flush = s.flushes := rfl

@[simp] theorem lsuIn_p : (s.lsuIn i).lsc.p = s.lsuP i := rfl

/-- The freeze of the load/store unit is that of the core. -/
@[simp] theorem freezeDc3_lsuIn : s.lsu.freezeDc3 (s.lsuIn i) = s.freeze i := rfl

@[simp] theorem decIn_freeze : (s.decIn i).freeze = s.freeze i := rfl

@[simp] theorem decIn_flushLowerWb : (s.decIn i).flushLowerWb = s.flushLowerWb := rfl

@[simp] theorem next_dec : (s.next i).dec = s.dec.next (s.decIn i) := rfl

@[simp] theorem next_exu : (s.next i).exu = s.exu.next (s.exuIn i) := rfl

@[simp] theorem next_div : (s.next i).div = s.div.next (s.divIn i) := rfl

@[simp] theorem next_fpu : (s.next i).fpu = s.fpu.next (s.fpuIn i) := rfl

@[simp] theorem next_tlu : (s.next i).tlu = s.tlu.next (s.tluIn i) := rfl

@[simp] theorem next_lsu : (s.next i).lsu = s.lsu.next (s.lsuIn i) := rfl

end Cpu

end SocRV
