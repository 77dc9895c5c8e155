import SocRV.Core.Decode

/-!
# Commit, kill and flush

`dec_tlu_ctl` decides in E4 which of the two instructions there commit, which writes of theirs are killed, and
whether the pipeline is flushed in the next cycle; it also keeps the address to go on from after an interrupt.  What
raises an interrupt, a trigger hit or a debug action, and where a flush goes, are inputs.  Interrupts have one input
for all maskable sources, as only their common blocking matters here.
-/

namespace SocRV

/-- The fields of `lsu_error_pkt_t` that decide whether a trap is taken; the memory has no ECC. -/
structure LsuErrorPkt where
  excValid : Bool := false
  instPipe : Bool := false
  deriving DecidableEq, Repr

/-- The registers of `dec_tlu_ctl`. -/
structure Tlu where
  lsuErrorPktDc4 : LsuErrorPkt := {}
  lsuFreezeE4 : Bool := false
  lsuFreezePulseE4 : Bool := false
  e5Valid : Bool := false
  lsuBlockInterruptsE4 : Bool := false
  flushLowerWb : Bool := false
  i0KillWritebWb : Bool := false
  i1KillWritebWb : Bool := false
  mretWb : Bool := false
  lsuExcValidWb : Bool := false
  interruptValidWb : Bool := false
  i0ExceptionValidWb : Bool := false
  excOrIntValidWb : Bool := false
  mepcTriggerHitSelPcWb : Bool := false
  flushPathWb : BitVec 31 := 0
  npcWb : BitVec 31 := 0
  pcWb : BitVec 31 := 0
  mepc : BitVec 31 := 0
  deriving DecidableEq, Repr

/-- The inputs of a core cycle: E4 as the other units see it, and what comes from outside the modelled part (interrupt
sources, triggers, debug, power management, CSR contents). -/
structure TluIn where
  i0ValidE4 : Bool := false
  i1ValidE4 : Bool := false
  packetE4 : TrapPkt := {}
  i0PcE4 : BitVec 31 := 0
  i1PcE4 : BitVec 31 := 0
  i0BrErrorE4 : Bool := false
  i0BrStartErrorE4 : Bool := false
  i0BrMpE4 : Bool := false
  i1BrErrorE4 : Bool := false
  i1BrStartErrorE4 : Bool := false
  i0FlushLowerE4 : Bool := false
  i1FlushLowerE4 : Bool := false
  i0InstMisalignedE4 : Bool := false
  i1InstMisalignedE4 : Bool := false
  exuNpcE4 : BitVec 31 := 0
  lsuErrorPktDc3 : LsuErrorPkt := {}
  lsuFreezeDc3 : Bool := false
  lsuFreezeExternalIntsDc3 : Bool := false
  intReady : Bool := false
  nmiReady : Bool := false
  blockOther : Bool := false
  i0TriggerHitRawE4 : Bool := false
  i1TriggerHitRawE4 : Bool := false
  triggerHitDmodeE4 : Bool := false
  dbgHalted : Bool := false
  requestDebugModeWb : Bool := false
  dcsrEbreakm : Bool := false
  mfdc13 : Bool := false
  syncFlushOther : Bool := false
  flushOther : Bool := false
  flushNoredirWb : Bool := false
  flushPathE4 : BitVec 31 := 0
  wrMepcWb : Bool := false
  csrWrdataWb : BitVec 31 := 0
  clkOverride : Bool := false

namespace Tlu

variable (s : Tlu) (i : TluIn)

/-! ## What goes wrong in E4 -/

/-- `lsu_i0_exc_dc4_raw`. -/
def lsuI0ExcDc4Raw : Bool := s.lsuErrorPktDc4.excValid && !s.lsuErrorPktDc4.instPipe

/-- `lsu_i1_exc_dc4_raw`. -/
def lsuI1ExcDc4Raw : Bool := s.lsuErrorPktDc4.excValid && s.lsuErrorPktDc4.instPipe

/-- `i0_trigger_hit_e4`. -/
def i0TriggerHitE4 : Bool := !(s.flushLowerWb || i.dbgHalted || s.lsuFreezePulseE4) && i.i0TriggerHitRawE4

/-- `freeze_rfpc_e4`. -/
def freezeRfpcE4 : Bool := s.lsuBlockInterruptsE4 && !s.flushLowerWb && i.mfdc13

/-- `rfpc_i0_e4`. -/
def rfpcI0E4 : Bool :=
  s.freezeRfpcE4 i ||
    (i.i0ValidE4 && !s.flushLowerWb && (i.i0BrErrorE4 || i.i0BrStartErrorE4) && !s.i0TriggerHitE4 i)

/-- `inst_acc_e4`. -/
def instAccE4 : Bool := i.packetE4.icaf && i.i0ValidE4 && !s.rfpcI0E4 i && !s.i0TriggerHitE4 i

/-- `ebreak_e4`. -/
def ebreakE4 : Bool :=
  i.packetE4.itype == .ebreak && i.i0ValidE4 && !s.i0TriggerHitE4 i && !i.dcsrEbreakm

/-- `ebreak_to_debug_mode_e4`. -/
def ebreakToDebugModeE4 : Bool :=
  i.packetE4.itype == .ebreak && i.i0ValidE4 && !s.i0TriggerHitE4 i && i.dcsrEbreakm

/-- `ecall_e4`. -/
def ecallE4 : Bool := i.packetE4.itype == .ecall && i.i0ValidE4 && !s.i0TriggerHitE4 i

/-- `illegal_e4`. -/
def illegalE4 : Bool := !i.packetE4.legal && i.i0ValidE4 && !s.i0TriggerHitE4 i

/-- `mret_e4`. -/
def mretE4 : Bool := i.packetE4.itype == .mret && i.i0ValidE4 && !s.i0TriggerHitE4 i

/-- `fence_i_e4`. -/
def fenceIE4 : Bool := i.packetE4.fenceI && i.i0ValidE4 && !s.i0TriggerHitE4 i

/-- `inst_misaligned_i0_e4`. -/
def instMisalignedI0E4 : Bool :=
  i.i0InstMisalignedE4 && i.i0ValidE4 && !s.flushLowerWb && !s.rfpcI0E4 i && !s.lsuI0ExcDc4Raw &&
    !s.instAccE4 i && !s.i0TriggerHitE4 i && !i.dbgHalted

/-- `lsu_i0_exc_dc4`.  For an instruction in slot `i0` the second factor of `lsu_exc_valid_e4_raw` is high. -/
def lsuI0ExcDc4 : Bool := s.lsuI0ExcDc4Raw && !s.flushLowerWb && !s.i0TriggerHitE4 i

/-- `tlu_i0_commit_cmt`. -/
def tluI0CommitCmt : Bool :=
  i.i0ValidE4 && !s.rfpcI0E4 i && !s.lsuI0ExcDc4 i && !s.instAccE4 i && !s.instMisalignedI0E4 i && !i.dbgHalted &&
    !i.requestDebugModeWb && !s.i0TriggerHitE4 i

/-- `i1_trigger_hit_e4`. -/
def i1TriggerHitE4 : Bool :=
  !(s.flushLowerWb || !s.tluI0CommitCmt i || i.i0BrMpE4 || i.dbgHalted || s.lsuFreezePulseE4) && i.i1TriggerHitRawE4

/-- `trigger_hit_e4`. -/
def triggerHitE4 : Bool := s.i0TriggerHitE4 i || s.i1TriggerHitE4 i

/-- `inst_misaligned_i1_e4`. -/
def instMisalignedI1E4 : Bool :=
  i.i1InstMisalignedE4 && i.i1ValidE4 && !s.flushLowerWb && !s.rfpcI0E4 i && !i.i0BrMpE4 && !s.lsuI0ExcDc4Raw &&
    !(s.ebreakE4 i || s.ecallE4 i || s.illegalE4 i || s.instAccE4 i) && !s.i0TriggerHitE4 i && !s.i1TriggerHitE4 i &&
    !s.instMisalignedI0E4 i && !i.dbgHalted

/-- `inst_misaligned_e4`. -/
def instMisalignedE4 : Bool := s.instMisalignedI0E4 i || s.instMisalignedI1E4 i

/-- `i0_exception_valid_e4`. -/
def i0ExceptionValidE4 : Bool :=
  (s.ebreakE4 i || s.ecallE4 i || s.illegalE4 i || s.instAccE4 i || s.instMisalignedE4 i) && !s.rfpcI0E4 i &&
    !i.dbgHalted

/-- `lsu_exc_valid_e4_raw`. -/
def lsuExcValidE4Raw : Bool :=
  s.lsuErrorPktDc4.excValid &&
    !(s.lsuErrorPktDc4.instPipe && (s.rfpcI0E4 i || s.i0ExceptionValidE4 i || i.i0BrMpE4)) && !s.flushLowerWb

/-- `lsu_i1_exc_dc4`. -/
def lsuI1ExcDc4 : Bool := s.lsuI1ExcDc4Raw && s.lsuExcValidE4Raw i && !s.triggerHitE4 i

/-- `lsu_exc_valid_e4`. -/
def lsuExcValidE4 : Bool := s.lsuI0ExcDc4 i || s.lsuI1ExcDc4 i

/-- `rfpc_i1_e4`. -/
def rfpcI1E4 : Bool :=
  i.i1ValidE4 && !s.flushLowerWb && !s.i0ExceptionValidE4 i && !i.i0BrMpE4 && !s.lsuI0ExcDc4 i &&
    !(i.i0BrErrorE4 || i.i0BrStartErrorE4) && (i.i1BrErrorE4 || i.i1BrStartErrorE4) && !s.triggerHitE4 i

/-! ## Commit and kill -/

/-- `tlu_i1_commit_cmt`. -/
def tluI1CommitCmt : Bool :=
  i.i1ValidE4 && !s.rfpcI0E4 i && !s.rfpcI1E4 i && !i.i0BrMpE4 && !s.lsuI0ExcDc4 i && !s.lsuI1ExcDc4 i &&
    !s.instAccE4 i && !s.instMisalignedE4 i && !i.requestDebugModeWb && !s.triggerHitE4 i

/-- `tlu_i0_kill_writeb_e4`. -/
def tluI0KillWritebE4 : Bool :=
  s.rfpcI0E4 i || s.lsuI0ExcDc4 i || s.instAccE4 i || s.instMisalignedI0E4 i || (s.illegalE4 i && i.dbgHalted) ||
    s.i0TriggerHitE4 i

/-- `tlu_i1_kill_writeb_e4`. -/
def tluI1KillWritebE4 : Bool :=
  s.rfpcI0E4 i || s.rfpcI1E4 i || s.lsuExcValidE4 i || i.i0BrMpE4 || s.instAccE4 i || s.instMisalignedE4 i ||
    (s.illegalE4 i && i.dbgHalted) || s.triggerHitE4 i

/-! ## Flush -/

/-- `i0_mp_e4`. -/
def i0MpE4 : Bool := i.i0FlushLowerE4 && !s.i0TriggerHitE4 i

/-- `i1_mp_e4`. -/
def i1MpE4 : Bool := i.i1FlushLowerE4 && !s.triggerHitE4 i

/-- `synchronous_flush_e4`.  `syncFlushOther` stands for the resumption from debug, halt and pause. -/
def synchronousFlushE4 : Bool :=
  s.i0ExceptionValidE4 i || s.i0MpE4 i || s.i1MpE4 i || s.rfpcI0E4 i || s.rfpcI1E4 i || s.lsuExcValidE4 i ||
    s.fenceIE4 i || i.syncFlushOther || s.triggerHitE4 i

/-- `take_nmi`. -/
def takeNmi : Bool := i.nmiReady && !s.synchronousFlushE4 i && !s.mretE4 i && !s.ebreakToDebugModeE4 i

/-- `block_interrupts`.  `blockOther` stands for the debug and halt modes. -/
def blockInterrupts : Bool :=
  (s.lsuBlockInterruptsE4 && !s.flushLowerWb) || i.blockOther || s.takeNmi i || s.ebreakToDebugModeE4 i ||
    s.synchronousFlushE4 i || s.excOrIntValidWb || s.mretWb || s.mretE4 i

/-- `interrupt_valid`. -/
def interruptValid : Bool := (i.intReady && !s.blockInterrupts i) || s.takeNmi i

/-- `tlu_flush_lower_e4`.  `flushOther` stands for the entry into a halt and the reset. -/
def tluFlushLowerE4 : Bool := s.interruptValid i || s.mretE4 i || s.synchronousFlushE4 i || i.flushOther

/-- `dec_tlu_cancel_e4`. -/
def cancelE4 : Bool := (i.i0TriggerHitRawE4 || i.i1TriggerHitRawE4) && s.lsuFreezePulseE4

/-- `exc_or_int_valid`. -/
def excOrIntValid : Bool :=
  s.lsuExcValidE4 i || s.i0ExceptionValidE4 i || s.interruptValid i || (s.triggerHitE4 i && !i.triggerHitDmodeE4)

/-! ## The address to go on from -/

/-- `e4_valid`. -/
def e4Valid (i : TluIn) : Bool := i.i0ValidE4 || i.i1ValidE4

/-- The enable of `e4e5_clk`. -/
def e4e5En : Bool := e4Valid i || s.e5Valid || s.freezeRfpcE4 i || i.clkOverride

/-- The enable of `e4e5_int_clk`. -/
def e4e5IntEn : Bool := s.e4e5En i || s.interruptValid i || s.interruptValidWb || i.syncFlushOther

/-- `sel_exu_npc_e4`. -/
def selExuNpcE4 : Bool := !i.dbgHalted && !s.flushLowerWb && e4Valid i

/-- `sel_flush_npc_e4`. -/
def selFlushNpcE4 : Bool := !i.dbgHalted && s.flushLowerWb && !i.flushNoredirWb

/-- `pc1_valid_e4`. -/
def pc1ValidE4 : Bool :=
  !i.dbgHalted && i.i0ValidE4 && i.i1ValidE4 && !s.lsuI0ExcDc4 i && !s.rfpcI0E4 i && !s.instAccE4 i &&
    !s.instMisalignedI0E4 i && !s.i0TriggerHitE4 i

/-- `mepc_ns`. -/
def mepcNs : BitVec 31 :=
  (if s.i0ExceptionValidWb || s.lsuExcValidWb || s.mepcTriggerHitSelPcWb then s.pcWb else 0) |||
    (if s.interruptValidWb then s.npcWb else 0) |||
    (if i.wrMepcWb && !s.excOrIntValidWb then i.csrWrdataWb else 0) |||
    (if !i.wrMepcWb && !s.excOrIntValidWb then s.mepc else 0)

/-- The registers after a core cycle. -/
def next : Tlu where
  lsuErrorPktDc4 :=
    rvdffs (i.lsuErrorPktDc3.excValid || s.lsuErrorPktDc4.excValid || i.clkOverride) i.lsuErrorPktDc3 s.lsuErrorPktDc4
  lsuFreezeE4 := i.lsuFreezeDc3
  lsuFreezePulseE4 := i.lsuFreezeDc3 && !s.lsuFreezeE4
  e5Valid := e4Valid i
  lsuBlockInterruptsE4 := i.lsuFreezeExternalIntsDc3 && !s.flushLowerWb
  flushLowerWb := s.tluFlushLowerE4 i
  i0KillWritebWb := s.tluI0KillWritebE4 i
  i1KillWritebWb := s.tluI1KillWritebE4 i
  mretWb := rvdffs (s.e4e5En i) (s.mretE4 i) s.mretWb
  lsuExcValidWb :=
    rvdffs (s.lsuErrorPktDc4.excValid || s.lsuExcValidWb || i.clkOverride) (s.lsuExcValidE4 i) s.lsuExcValidWb
  interruptValidWb := rvdffs (s.e4e5IntEn i) (s.interruptValid i) s.interruptValidWb
  i0ExceptionValidWb := rvdffs (s.e4e5IntEn i) (s.i0ExceptionValidE4 i) s.i0ExceptionValidWb
  excOrIntValidWb := rvdffs (s.e4e5IntEn i) (s.excOrIntValid i) s.excOrIntValidWb
  mepcTriggerHitSelPcWb :=
    rvdffs (s.e4e5IntEn i) (s.triggerHitE4 i && !i.triggerHitDmodeE4) s.mepcTriggerHitSelPcWb
  flushPathWb := rvdffs (s.e4e5IntEn i) i.flushPathE4 s.flushPathWb
  npcWb := if s.selExuNpcE4 i then i.exuNpcE4 else if s.selFlushNpcE4 i then s.flushPathWb else s.npcWb
  pcWb := rvdffs (!i.dbgHalted && i.i0ValidE4) (if s.pc1ValidE4 i then i.i1PcE4 else i.i0PcE4) s.pcWb
  mepc := rvdffs (s.e4e5IntEn i) (s.mepcNs i) s.mepc

end Tlu

end SocRV
