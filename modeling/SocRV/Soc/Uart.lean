import SocRV.Lib.Machine
import SocRV.Lib.Serial

/-!
# The UART

`uart`: a transmitter and a receiver with four-entry FIFOs behind a register interface.  The transmitter holds each bit
for `baud_div` cycles; the receiver passes the line through two flip-flops, waits half a bit after the falling edge of
the start bit and then samples once a bit.
-/

namespace SocRV

/-- The registers. -/
structure Uart where
  txFifo : BitVec 2 → BitVec 8 := fun _ => 0
  rxFifo : BitVec 2 → BitVec 8 := fun _ => 0
  txWrPtr : BitVec 2 := 0
  txRdPtr : BitVec 2 := 0
  rxWrPtr : BitVec 2 := 0
  rxRdPtr : BitVec 2 := 0
  txCount : BitVec 3 := 0
  rxCount : BitVec 3 := 0
  baudDiv : BitVec 32
  uartCtrl : BitVec 2 := 0b11
  irqPending : Bool := false
  txShift : BitVec 10 := 0x3ff
  txBitsLeft : BitVec 4 := 0
  txBaudCount : BitVec 32 := 0
  rxMeta : Bool := true
  rxSync : Bool := true
  rxSyncQ : Bool := true
  rxBusy : Bool := false
  rxBitIndex : BitVec 4 := 0
  rxBaudCount : BitVec 32 := 0
  rxShift : BitVec 8 := 0

/-- The line and the register access of a cycle. -/
structure UartIn where
  uartRx : Bool := true
  reqValid : Bool := false
  reqWrite : Bool := false
  reqAddr : BitVec 12 := 0
  reqWdata : BitVec 32 := 0
  reqWstrb : BitVec 4 := 0
  deriving DecidableEq, Repr

namespace Uart

/-- `RESET_DIV`. -/
def resetDiv (clockHz baud : Nat) : BitVec 32 :=
  BitVec.ofNat 32 (if 1 < clockHz / baud then clockHz / baud else 2)

/-- The registers after reset; the FIFOs are not reset. -/
def reset (clockHz baud : Nat) : Uart := { baudDiv := resetDiv clockHz baud }

variable (s : Uart) (i : UartIn)

/-- `tx_full`, `tx_empty`, `tx_idle`, `rx_full` and `rx_empty`. -/
def txFull : Bool := s.txCount == 4

@[inherit_doc txFull]
def txEmpty : Bool := s.txCount == 0

@[inherit_doc txFull]
def txIdle : Bool := s.txEmpty && s.txBitsLeft == 0

@[inherit_doc txFull]
def rxFull : Bool := s.rxCount == 4

@[inherit_doc txFull]
def rxEmpty : Bool := s.rxCount == 0

/-- `req_addr[7:2]`. -/
def register (i : UartIn) : BitVec 6 := i.reqAddr.extractLsb' 2 6

/-- `req_ready`. -/
def reqReady : Bool := !(i.reqValid && i.reqWrite && register i == 0x00 && s.txFull)

/-- `tx_push`, `tx_pop`, `rx_push` and `rx_pop`. -/
def txPush : Bool :=
  i.reqValid && s.reqReady i && i.reqWrite && register i == 0x00 && i.reqWstrb.getLsbD 0 && s.uartCtrl.getLsbD 0

@[inherit_doc txPush]
def txPop : Bool := s.uartCtrl.getLsbD 0 && s.txBitsLeft == 0 && !s.txEmpty

@[inherit_doc txPush]
def rxPush : Bool := s.rxBusy && s.rxBitIndex == 9 && s.rxBaudCount == 0 && s.rxSync && !s.rxFull

@[inherit_doc txPush]
def rxPop : Bool := i.reqValid && s.reqReady i && !i.reqWrite && register i == 0x01 && !s.rxEmpty

/-- `uart_tx`. -/
def uartTx : Bool := if s.txBitsLeft == 0 then true else s.txShift.getLsbD 0

/-- `req_rdata`. -/
def reqRdata : BitVec 32 :=
  if register i == 0x01 then (if s.rxEmpty then 0 else (s.rxFifo s.rxRdPtr).setWidth 32)
  else if register i == 0x02 then
    0#28 ++ BitVec.ofBool s.rxFull ++ BitVec.ofBool s.txIdle ++ BitVec.ofBool (!s.txFull) ++ BitVec.ofBool (!s.rxEmpty)
  else if register i == 0x03 then s.baudDiv
  else if register i == 0x04 then s.uartCtrl.setWidth 32
  else if register i == 0x05 then 0#31 ++ BitVec.ofBool s.irqPending
  else 0

/-- A FIFO's count after a push, a pop, both or neither. -/
def count (n : BitVec 3) (push pop : Bool) : BitVec 3 :=
  match push, pop with
  | true, false => n + 1
  | false, true => n - 1
  | _, _ => n

/-- The transmitter's shift register, bits left and baud counter after a cycle. -/
def txNext : BitVec 10 × BitVec 4 × BitVec 32 :=
  if s.txPop then
    (0b1#1 ++ s.txFifo s.txRdPtr ++ 0b0#1, 10, s.baudDiv - 1)
  else if s.txBitsLeft != 0 then
    if s.txBaudCount == 0 then (0b1#1 ++ s.txShift.extractLsb' 1 9, s.txBitsLeft - 1, s.baudDiv - 1)
    else (s.txShift, s.txBitsLeft, s.txBaudCount - 1)
  else (s.txShift, s.txBitsLeft, s.txBaudCount)

/-- The receiver's registers `rx_busy`, `rx_bit_index`, `rx_baud_count` and `rx_shift` after a cycle. -/
def rxNext : Bool × BitVec 4 × BitVec 32 × BitVec 8 :=
  if !s.rxBusy && s.uartCtrl.getLsbD 1 && s.rxSyncQ && !s.rxSync then (true, 0, s.baudDiv >>> 1, s.rxShift)
  else if s.rxBusy then
    if s.rxBaudCount != 0 then (true, s.rxBitIndex, s.rxBaudCount - 1, s.rxShift)
    else if s.rxBitIndex == 0 then
      if !s.rxSync then (true, 1, s.baudDiv - 1, s.rxShift) else (false, s.rxBitIndex, s.rxBaudCount, s.rxShift)
    else if s.rxBitIndex ≤ 8 then
      let bit := (s.rxBitIndex - 1).toNat
      (true, s.rxBitIndex + 1, s.baudDiv - 1,
        if s.rxSync then s.rxShift ||| 1#8 <<< bit else s.rxShift &&& ~~~(1#8 <<< bit))
    else (false, s.rxBitIndex, s.rxBaudCount, s.rxShift)
  else (s.rxBusy, s.rxBitIndex, s.rxBaudCount, s.rxShift)

/-- The receiver stores its byte; `rx_push` says the same of the count. -/
def rxStore : Bool :=
  s.rxBusy && s.rxBaudCount == 0 && s.rxBitIndex != 0 && !decide (s.rxBitIndex ≤ 8) && s.rxSync && !s.rxFull

/-- A write to a configuration register. -/
def configWrite (r : BitVec 6) : Bool := i.reqValid && s.reqReady i && i.reqWrite && register i == r

/-- The registers after a cycle. -/
def next : Uart where
  txFifo := if s.txPush i then fun p => if p = s.txWrPtr then i.reqWdata.setWidth 8 else s.txFifo p else s.txFifo
  rxFifo := if s.rxStore then fun p => if p = s.rxWrPtr then s.rxShift else s.rxFifo p else s.rxFifo
  txWrPtr := if s.txPush i then s.txWrPtr + 1 else s.txWrPtr
  txRdPtr := if s.txPop then s.txRdPtr + 1 else s.txRdPtr
  rxWrPtr := if s.rxStore then s.rxWrPtr + 1 else s.rxWrPtr
  rxRdPtr := if s.rxPop i then s.rxRdPtr + 1 else s.rxRdPtr
  txCount := count s.txCount (s.txPush i) s.txPop
  rxCount := count s.rxCount s.rxPush (s.rxPop i)
  baudDiv :=
    if s.configWrite i 0x03 && i.reqWstrb == 0xf && decide (2 ≤ i.reqWdata) then i.reqWdata else s.baudDiv
  uartCtrl := if s.configWrite i 0x04 && i.reqWstrb.getLsbD 0 then i.reqWdata.setWidth 2 else s.uartCtrl
  irqPending :=
    if s.configWrite i 0x05 && i.reqWstrb.getLsbD 0 && i.reqWdata.getLsbD 0 then false else s.rxPush || s.irqPending
  txShift := s.txNext.1
  txBitsLeft := s.txNext.2.1
  txBaudCount := s.txNext.2.2
  rxMeta := i.uartRx
  rxSync := s.rxMeta
  rxSyncQ := s.rxSync
  rxBusy := s.rxNext.1
  rxBitIndex := s.rxNext.2.1
  rxBaudCount := s.rxNext.2.2.1
  rxShift := s.rxNext.2.2.2

/-- The UART with its line wired back to itself. -/
def loopback (clockHz baud : Nat) : Machine Uart UartIn where
  reset := reset clockHz baud
  next s i := s.next { i with uartRx := s.uartTx }

/-- The byte accepted into the transmit FIFO in a cycle. -/
def accepts (s : Uart) (i : UartIn) : List (BitVec 8) := if s.txPush i then [i.reqWdata.setWidth 8] else []

/-- The byte pushed into the receive FIFO in a cycle. -/
def delivers (s : Uart) (_i : UartIn) : List (BitVec 8) := if s.rxStore then [s.rxShift] else []

end Uart

end SocRV
