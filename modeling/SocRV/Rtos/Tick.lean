import SocRV.Lib.Interleaving
import SocRV.Soc.MachineTimer

/-!
# The system tick

Timer and software requests share an interrupt cause, and the handler `timer_irq` tells them apart by reading the
software request.  Stores to the peripherals are posted: they are performed in order, some time after the program has
gone on.  The line the core samples comes through two flip-flops, so it follows the requests with a delay.
-/

namespace SocRV

namespace Tick

open SplitCounter (lowOf highOf)

/-! ## The drivers -/

/-- `mmio_write32`. -/
def mmioWrite32 (address value : BitVec 32) : Payload := ⟨true, address, value, 0xf⟩

/-- The stores of `timer_set_compare`: the compare value is out of reach while its low half changes. -/
def timerSetCompare (deadline : BitVec 64) : List Payload :=
  [mmioWrite32 (timerBase + 0x0c) 0xffffffff,
    mmioWrite32 (timerBase + 0x08) (lowOf deadline),
    mmioWrite32 (timerBase + 0x0c) (highOf deadline)]

/-- The store of `timer_start`. -/
def timerStart (irqEnable : Bool) : List Payload :=
  [mmioWrite32 (timerBase + 0x10) (if irqEnable then 0b11 else 0b01)]

/-- The stores of `irq_trigger_software` and `irq_clear_software`. -/
def irqTriggerSoftware : Payload := mmioWrite32 (sysctrlBase + 0x10) 1

@[inherit_doc irqTriggerSoftware]
def irqClearSoftware : Payload := mmioWrite32 (sysctrlBase + 0x10) 0

/-- The variables of the timer driver. -/
structure TimerVars where
  nextDeadline : BitVec 64
  tickDelta : BitVec 64
  deriving DecidableEq, Repr

/-- `soc_peripheral_clock_hz` when the register reads `clockHz`. -/
def socPeripheralClockHz (clockHz : BitVec 32) : BitVec 32 :=
  if 1000000 ≤ clockHz && clockHz ≤ 500000000 then clockHz else 50000000

/-- `timer_init_tick` when the clock register reads `reg` and `timer_read` returns `now`: the variables and the stores,
or nothing for a rate that does not divide the clock. -/
def timerInitTick (reg tickHz : BitVec 32) (now : BitVec 64) : Option (TimerVars × List Payload) :=
  let clockHz := socPeripheralClockHz reg
  if tickHz == 0 || clockHz % tickHz != 0 then none
  else
    let delta := (clockHz / tickHz).setWidth 64
    some (⟨now + delta, delta⟩, timerSetCompare (now + delta) ++ timerStart true)

/-! ## The system -/

/-- What runs: a thread, or the handler.  In the handler `posting` has the stores still to come, and whether
`rt_tick_increase` is called behind them; in `leaving` that call is under way or over. -/
inductive Mode where
  | thread
  | entered
  | posting (stores : List Payload) (tick : Bool)
  | leaving
  deriving DecidableEq, Repr

/-- The peripherals, the stores on their way to them, the synchronisers, and the software. -/
structure System where
  sources : TickSources
  posted : List Payload
  timerMeta : Bool := false
  timerSync : Bool := false
  softwareMeta : Bool := false
  softwareSync : Bool := false
  vars : TimerVars
  /-- How often `rt_tick_increase` was called. -/
  ticks : Nat := 0
  mode : Mode := .thread
  /-- Interrupts are enabled. -/
  mie : Bool := false
  deriving DecidableEq, Repr

/-- What can happen next. -/
inductive Action where
  /-- A core clock edge. -/
  | core
  /-- A peripheral clock edge, with or without the oldest posted store. -/
  | periph (perform : Bool)
  /-- The running code enables or disables interrupts. -/
  | mask (enable : Bool)
  /-- The running code calls `rt_trigger_software_interrupt`. -/
  | trigger
  /-- The running code stores to a register that has nothing to do with the tick. -/
  | store (p : Payload)
  /-- The core takes the interrupt. -/
  | take
  /-- The handler goes on. -/
  | handler
  /-- The handler returns. -/
  | mret
  deriving DecidableEq, Repr

/-- The store is one to the timer or to the software request. -/
def touchesTick (p : Payload) : Bool := timerSel p || (sysctrlSel p && p.addr.extractLsb' 2 6 == 0x04)

namespace System

/-- `timer_int`. -/
def timerInt (s : System) : Bool := s.timerSync || s.softwareSync

/-- Code other than `timer_irq` itself is running: a thread, or what `rt_tick_increase` calls. -/
def outsideIrq (s : System) : Bool := s.mode == .thread || s.mode == .leaving

/-- `timer_irq`, step by step.  The load of the software request waits until the stores before it are performed. -/
def handlerStep (s : System) : Option System :=
  match s.mode with
  | .entered =>
    if s.posted.isEmpty then
      if s.sources.softwareIrq then some { s with mode := .posting [irqClearSoftware] false }
      else
        let deadline := s.vars.nextDeadline + s.vars.tickDelta
        some { s with vars := { s.vars with nextDeadline := deadline }, mode := .posting (timerSetCompare deadline) true }
    else none
  | .posting (p :: rest) tick => some { s with posted := s.posted ++ [p], mode := .posting rest tick }
  | .posting [] true => some { s with ticks := s.ticks + 1, mode := .leaving }
  | .posting [] false => some { s with mode := .leaving }
  | _ => none

/-- The state after an action, if it is possible. -/
def act (s : System) : Action → Option System
  | .core => some { s with
      timerMeta := s.sources.timer.timerIrq, timerSync := s.timerMeta,
      softwareMeta := s.sources.softwareIrq, softwareSync := s.softwareMeta }
  | .periph false => some { s with sources := s.sources.next none }
  | .periph true =>
    match s.posted with
    | [] => none
    | p :: rest => some { s with sources := s.sources.next (some p), posted := rest }
  | .mask enable => if s.mode == .thread then some { s with mie := enable } else none
  | .trigger => if s.outsideIrq then some { s with posted := s.posted ++ [irqTriggerSoftware] } else none
  | .store p => if s.outsideIrq && !touchesTick p then some { s with posted := s.posted ++ [p] } else none
  | .take => if s.mode == .thread && s.mie && s.timerInt then some { s with mode := .entered, mie := false } else none
  | .handler => s.handlerStep
  | .mret => if s.mode == .leaving then some { s with mode := .thread, mie := true } else none

end System

end Tick

end SocRV
