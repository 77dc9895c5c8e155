import SocRV.Lib.SplitCounter
import SocRV.Soc.ClockBridge

/-!
# The timer and the software request

`machine_timer` counts `mtime` and requests an interrupt while it is at or past `mtimecmp`; the register `SOFTWARE_IRQ`
of `sysctrl` requests one while its bit is set.  `soc_top` puts both on one interrupt line of the core.
-/

namespace SocRV

/-- The registers of `machine_timer`. -/
structure MachineTimer where
  mtime : BitVec 64 := 0
  mtimecmp : BitVec 64 := 0xffffffffffffffff
  timerCtrl : BitVec 2 := 0b01
  deriving DecidableEq, Repr

namespace MachineTimer

open SplitCounter (lowOf highOf)

/-- `merge_wstrb`: the bytes that the strobes select come from the new value. -/
def mergeWstrb (old new : BitVec 32) (strb : BitVec 4) : BitVec 32 :=
  let byte (i : Nat) : BitVec 8 := if strb.getLsbD i then new.extractLsb' (8 * i) 8 else old.extractLsb' (8 * i) 8
  byte 3 ++ byte 2 ++ byte 1 ++ byte 0

/-- `timer_irq`. -/
def timerIrq (s : MachineTimer) : Bool :=
  s.timerCtrl.getLsbD 0 && s.timerCtrl.getLsbD 1 && decide (s.mtimecmp ≤ s.mtime)

/-- `req_rdata`: what a load of the register at an address reads. -/
def reqRdata (s : MachineTimer) (addr : BitVec 32) : BitVec 32 :=
  let reg := addr.extractLsb' 2 6
  if reg = 0x00 then lowOf s.mtime
  else if reg = 0x01 then highOf s.mtime
  else if reg = 0x02 then lowOf s.mtimecmp
  else if reg = 0x03 then highOf s.mtimecmp
  else if reg = 0x04 then s.timerCtrl.setWidth 32
  else if reg = 0x05 then if s.mtimecmp ≤ s.mtime then 1 else 0
  else 0

/-- `mtime` after a cycle in which it is not written. -/
def count (s : MachineTimer) : BitVec 64 := if s.timerCtrl.getLsbD 0 then s.mtime + 1 else s.mtime

/-- The registers after a cycle; the request is one of those that select the timer. -/
def next (s : MachineTimer) (req : Option Payload) : MachineTimer :=
  let t := { s with mtime := s.count }
  match req with
  | none => t
  | some p =>
    let reg := p.addr.extractLsb' 2 6
    if !p.write then t
    else if reg = 0x00 then { t with mtime := highOf s.count ++ mergeWstrb (lowOf s.mtime) p.wdata p.wstrb }
    else if reg = 0x01 then { t with mtime := mergeWstrb (highOf s.mtime) p.wdata p.wstrb ++ lowOf s.count }
    else if reg = 0x02 then { t with mtimecmp := highOf s.mtimecmp ++ mergeWstrb (lowOf s.mtimecmp) p.wdata p.wstrb }
    else if reg = 0x03 then { t with mtimecmp := mergeWstrb (highOf s.mtimecmp) p.wdata p.wstrb ++ lowOf s.mtimecmp }
    else if reg = 0x04 then
      { t with timerCtrl := (mergeWstrb (s.timerCtrl.setWidth 32) p.wdata p.wstrb).extractLsb' 0 2 }
    else t

end MachineTimer

/-- `TIMER_BASE`, `SYSCTRL_BASE` and their sizes. -/
def timerBase : BitVec 32 := 0x10000000

@[inherit_doc timerBase]
def sysctrlBase : BitVec 32 := 0x10003000

@[inherit_doc timerBase]
def blockSize : BitVec 32 := 0x1000

/-- `timer_sel` and `sysctrl_sel`. -/
def timerSel (p : Payload) : Bool := decide (timerBase ≤ p.addr) && decide (p.addr < timerBase + blockSize)

@[inherit_doc timerSel]
def sysctrlSel (p : Payload) : Bool := decide (sysctrlBase ≤ p.addr) && decide (p.addr < sysctrlBase + blockSize)

/-- The sources of the interrupt line: `machine_timer` and the register `software_irq` of `sysctrl`. -/
structure TickSources where
  timer : MachineTimer := {}
  softwareIrq : Bool := false
  deriving DecidableEq, Repr

namespace TickSources

/-- `software_irq` after a cycle; the request is one of those that select `sysctrl`. -/
def nextSoftwareIrq (s : Bool) (p : Payload) : Bool :=
  if p.write && p.addr.extractLsb' 2 6 == 0x04 && p.wstrb.getLsbD 0 then p.wdata.getLsbD 0 else s

/-- The registers after a peripheral cycle. -/
def next (s : TickSources) (req : Option Payload) : TickSources where
  timer := s.timer.next (req.filter timerSel)
  softwareIrq := match req with
    | none => s.softwareIrq
    | some p => if sysctrlSel p then nextSoftwareIrq s.softwareIrq p else s.softwareIrq

end TickSources

end SocRV
