import SocRV.Core.Tlu
import SocRV.Lib.AndOr

/-!
# Where a flush goes

`tlu_flush_path_e4` joins eleven gated sources: the other paths of the two branches, the next instruction, the
instructions to fetch again, the interrupt and the exception vector, and the addresses that `mret`, the debugger and a
wake-up go on from.  Nothing but the causes in E4 keeps two of them from being selected together.
-/

namespace SocRV

/-- What the address of a flush depends on besides the signals of `TluIn`: the reset, the branch paths of the execution
unit, the vectors, the wake-ups from halt, pause and debug, and what the triggers compare. -/
structure FlushPathIn where
  takeReset : Bool := false
  rstVec : BitVec 31 := 0
  i0FlushPathE4 : BitVec 31 := 0
  i1FlushPathE4 : BitVec 31 := 0
  mtvec : BitVec 31 := 0
  nmiVec : BitVec 31 := 0
  excCauseE4 : BitVec 5 := 0
  dpc : BitVec 31 := 0
  cpuRunReqD1 : Bool := false
  pmuFwTluHaltedF : Bool := false
  pauseExpiredE4 : Bool := false
  debugResumeReqF : Bool := false
  wrPauseWb : Bool := false
  i0LoadE4 : Bool := false
  i0Trigger : BitVec 4 := 0
  i1Trigger : BitVec 4 := 0
  triggerExecute : BitVec 4 := 0
  triggerData : BitVec 4 := 0
  triggerStore : BitVec 4 := 0
  triggerEnabled : BitVec 4 := 0
  triggerChain : BitVec 3 := 0

namespace Tlu

variable (s : Tlu) (i : TluIn) (x : FlushPathIn)

/-! ## Triggers -/

/-- `{4{b}}`. -/
def all4 (b : Bool) : BitVec 4 := if b then 0xf else 0

/-- `i0_trigger_chain_masked_e4`: a trigger that is chained to its neighbour hits only together with it. -/
def chainMasked (t : BitVec 4) (chain : BitVec 3) : BitVec 4 :=
  BitVec.ofBool (t.getLsbD 3 && (!chain.getLsbD 2 || t.getLsbD 2)) ++
    BitVec.ofBool (t.getLsbD 2 && (!chain.getLsbD 2 || t.getLsbD 3)) ++
    BitVec.ofBool (t.getLsbD 1 && (!chain.getLsbD 0 || t.getLsbD 0)) ++
    BitVec.ofBool (t.getLsbD 0 && (!chain.getLsbD 0 || t.getLsbD 1))

/-- `i0_trigger_eval_e4`. -/
def i0TriggerEvalE4 : Bool := i.i0ValidE4 || (x.i0LoadE4 && s.lsuFreezePulseE4)

/-- `i1_trigger_eval_e4`. -/
def i1TriggerEvalE4 : Bool := i.i1ValidE4 || (!x.i0LoadE4 && s.lsuFreezePulseE4)

/-- `i0_trigger_e4`: what the fetch or the branch predictor got wrong goes before the trigger, and so does a fault of a
store whose data the trigger watches. -/
def i0TriggerE4 : BitVec 4 :=
  all4 (s.i0TriggerEvalE4 i x) &&& x.i0Trigger &&&
    ~~~((x.triggerExecute &&& x.triggerData &&& all4 (i.packetE4.icaf && i.i0ValidE4)) |||
      all4 (i.i0BrErrorE4 || i.i0BrStartErrorE4)) &&&
    ~~~(x.triggerStore &&& x.triggerData &&& all4 s.lsuI0ExcDc4Raw) &&& x.triggerEnabled

/-- `i1_trigger_e4`. -/
def i1TriggerE4 : BitVec 4 :=
  all4 (s.i1TriggerEvalE4 i x) &&& x.i1Trigger &&& ~~~all4 (i.i1BrErrorE4 || i.i1BrStartErrorE4) &&&
    ~~~(x.triggerStore &&& x.triggerData &&& all4 s.lsuI1ExcDc4Raw) &&& x.triggerEnabled

/-- `i0_trigger_hit_raw_e4`. -/
def i0TriggerHitRaw : Bool := chainMasked (s.i0TriggerE4 i x) x.triggerChain != 0

/-- `i1_trigger_hit_raw_e4`. -/
def i1TriggerHitRaw : Bool := chainMasked (s.i1TriggerE4 i x) x.triggerChain != 0

/-! ## The address -/

/-- `sel_npc_e4`; without ECC no load is repeated. -/
def selNpcE4 : Bool := s.fenceIE4 i || (x.cpuRunReqD1 && !s.interruptValid i)

/-- `sel_npc_wb`. -/
def selNpcWb : Bool := (x.cpuRunReqD1 && x.pmuFwTluHaltedF) || x.pauseExpiredE4

/-- `npc_e4`. -/
def npcE4 : BitVec 31 :=
  if s.selExuNpcE4 i then i.exuNpcE4 else if s.selFlushNpcE4 i then s.flushPathWb else s.npcWb

/-- `{mtvec[30:1], 1'b0}`. -/
def mtvecBase : BitVec 31 := x.mtvec.extractLsb' 1 30 ++ 0#1

/-- `vectored_path`. -/
def vectoredPath : BitVec 31 := mtvecBase x + (x.excCauseE4.zeroExtend 31 <<< 1)

/-- `interrupt_path`. -/
def interruptPath : BitVec 31 :=
  if s.takeNmi i then x.nmiVec else if x.mtvec.getLsbD 0 then vectoredPath x else mtvecBase x

/-- An exception is taken: the select line of the exception vector without `~interrupt_valid`. -/
def takesException : Bool :=
  s.i0ExceptionValidE4 i || s.lsuExcValidE4 i || (s.triggerHitE4 i && !i.triggerHitDmodeE4)

/-- The sources of `tlu_flush_path_e4` with their select lines, in the order of the source. -/
def flushSources : List (Bool × BitVec 31) :=
  [(!s.takeNmi i && s.i0MpE4 i, x.i0FlushPathE4),
    (!s.takeNmi i && !s.i0MpE4 i && s.i1MpE4 i && !s.rfpcI0E4 i && !s.lsuI0ExcDc4 i, x.i1FlushPathE4),
    (!s.takeNmi i && s.selNpcE4 i x, s.npcE4 i),
    (!s.takeNmi i && s.rfpcI0E4 i, i.i0PcE4),
    (!s.takeNmi i && s.rfpcI1E4 i, i.i1PcE4),
    (s.interruptValid i, s.interruptPath i x),
    (s.takesException i && !s.interruptValid i, mtvecBase x),
    (!s.takeNmi i && s.mretE4 i && !i.wrMepcWb, s.mepc),
    (!s.takeNmi i && x.debugResumeReqF, x.dpc),
    (!s.takeNmi i && selNpcWb x, s.npcWb),
    (!s.takeNmi i && s.mretE4 i && i.wrMepcWb, i.csrWrdataWb)]

/-- `tlu_flush_path_e4`. -/
def flushPath : BitVec 31 := if x.takeReset then x.rstVec else andOr (s.flushSources i x)

/-- The address of the flush is well defined in a cycle: at most one source is selected, and an exception that is taken
without an interrupt goes to the base of the trap vector. -/
def PathExact : Prop :=
  AtMostOne (s.flushSources i x) ∧
    (s.takesException i = true → s.interruptValid i = false → x.takeReset = false → s.flushPath i x = mtvecBase x)

end Tlu

end SocRV
