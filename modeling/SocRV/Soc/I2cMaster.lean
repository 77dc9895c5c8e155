import SocRV.Lib.TwoWire
import SocRV.Soc.ClockBridge
import SocRV.Soc.MachineTimer

/-!
# The I2C controller

`i2c_master` performs one command at a time: a start, a stop, a byte written or read, or the recovery of a stuck bus.
Each phase of a command lasts `clock_div + 1` cycles, those with the clock let go only while the clock is high, and the
whole command at most `timeout` cycles.
-/

namespace SocRV

/-- `state_t`. -/
inductive I2cState where
  | idle
  | startRelease | startSdaLow | startSclLow
  | stopSdaLow | stopSclHigh | stopRelease
  | writeBitLow | writeBitHigh | writeAckLow | writeAckHigh | writeAckFinish
  | readBitLow | readBitHigh | readAckLow | readAckHigh | readAckFinish
  | recoverLow | recoverHigh
  deriving DecidableEq, Repr

/-- The registers. -/
structure I2cMaster where
  state : I2cState := .idle
  controllerEnable : Bool := false
  busy : Bool := false
  done : Bool := false
  addrNack : Bool := false
  dataNack : Bool := false
  timeoutError : Bool := false
  arbitrationLost : Bool := false
  busStuck : Bool := false
  busActive : Bool := false
  rxValid : Bool := false
  commandAddress : Bool := false
  readNack : Bool := false
  bitIndex : BitVec 3 := 7
  recoveryCount : BitVec 4 := 0
  txData : BitVec 8 := 0
  txShift : BitVec 8 := 0
  rxData : BitVec 8 := 0
  rxShift : BitVec 8 := 0
  clockDiv : BitVec 32
  timeout : BitVec 32
  phaseCount : BitVec 32 := 0
  commandTimer : BitVec 32 := 0
  deriving DecidableEq, Repr

namespace I2cMaster

/-- The registers after reset; the parameters are those `local_peripheral_subsystem` gives the controller. -/
def reset (peripheralClockHz : Nat) : I2cMaster where
  clockDiv := BitVec.ofNat 32 (peripheralClockHz / (4 * 100000) - 1)
  timeout := BitVec.ofNat 32 (peripheralClockHz / 100)

variable (s : I2cMaster)

/-! ## The pins and the status -/

/-- `scl_drive_low` and `sda_drive_low`. -/
def drives : Drives :=
  match s.state with
  | .idle => ⟨s.busActive, false⟩
  | .startRelease => ⟨false, false⟩
  | .startSdaLow => ⟨false, true⟩
  | .startSclLow => ⟨true, true⟩
  | .stopSdaLow => ⟨true, true⟩
  | .stopSclHigh => ⟨false, true⟩
  | .stopRelease => ⟨false, false⟩
  | .writeBitLow => ⟨true, !s.txShift.getLsbD s.bitIndex.toNat⟩
  | .writeBitHigh => ⟨false, !s.txShift.getLsbD s.bitIndex.toNat⟩
  | .writeAckLow => ⟨true, false⟩
  | .writeAckHigh => ⟨false, false⟩
  | .writeAckFinish => ⟨true, false⟩
  | .readBitLow => ⟨true, false⟩
  | .readBitHigh => ⟨false, false⟩
  | .readAckLow => ⟨true, !s.readNack⟩
  | .readAckHigh => ⟨false, !s.readNack⟩
  | .readAckFinish => ⟨true, false⟩
  | .recoverLow => ⟨true, false⟩
  | .recoverHigh => ⟨false, false⟩

/-- `status_value`. -/
def statusValue (l : Lines) : BitVec 32 :=
  0#20 ++ BitVec.ofBool s.rxValid ++ BitVec.ofBool (!s.busy && !s.busActive && l.scl && l.sda) ++
    BitVec.ofBool s.busActive ++ BitVec.ofBool l.sda ++ BitVec.ofBool l.scl ++ BitVec.ofBool s.busStuck ++
    BitVec.ofBool s.arbitrationLost ++ BitVec.ofBool s.timeoutError ++ BitVec.ofBool s.dataNack ++
    BitVec.ofBool s.addrNack ++ BitVec.ofBool s.done ++ BitVec.ofBool s.busy

/-- The offset of a register in its block, `req_addr`. -/
def offset (p : Payload) : BitVec 12 := p.addr.extractLsb' 0 12

/-- `req_rdata`. -/
def reqRdata (p : Payload) (l : Lines) : BitVec 32 :=
  if offset p = 0x000 then 0#31 ++ BitVec.ofBool s.controllerEnable
  else if offset p = 0x004 then s.statusValue l
  else if offset p = 0x008 then s.clockDiv
  else if offset p = 0x00c then s.txData.setWidth 32
  else if offset p = 0x010 then s.rxData.setWidth 32
  else if offset p = 0x018 then s.timeout
  else 0

/-! ## The requests -/

/-- The registers after the writes to `STATUS`, `CLOCK_DIV`, `TIMEOUT` and `TXDATA`. -/
def writeRegisters (p : Payload) : I2cMaster :=
  if offset p = 0x004 && p.wstrb.getLsbD 0 then
    { s with
      done := s.done && !p.wdata.getLsbD 1
      addrNack := s.addrNack && !p.wdata.getLsbD 2
      dataNack := s.dataNack && !p.wdata.getLsbD 3
      timeoutError := s.timeoutError && !p.wdata.getLsbD 4
      arbitrationLost := s.arbitrationLost && !p.wdata.getLsbD 5
      busStuck := s.busStuck && !p.wdata.getLsbD 6 }
  else if offset p = 0x008 then { s with clockDiv := MachineTimer.mergeWstrb s.clockDiv p.wdata p.wstrb }
  else if offset p = 0x018 then { s with timeout := MachineTimer.mergeWstrb s.timeout p.wdata p.wstrb }
  else if offset p = 0x00c && p.wstrb.getLsbD 0 then { s with txData := p.wdata.setWidth 8 }
  else s

/-- A write to `CONTROL`. -/
def writeControl (p : Payload) : I2cMaster :=
  if p.wdata.getLsbD 1 then
    { s with
      controllerEnable := p.wdata.getLsbD 0
      state := .idle, busy := false, done := false
      addrNack := false, dataNack := false, timeoutError := false, arbitrationLost := false, busStuck := false
      busActive := false, rxValid := false, phaseCount := 0, commandTimer := 0 }
  else if p.wdata.getLsbD 2 && p.wdata.getLsbD 0 && !s.busy then
    { s with
      controllerEnable := p.wdata.getLsbD 0
      state := .recoverLow, busy := true, done := false, busActive := false
      recoveryCount := 0, phaseCount := 0, commandTimer := 0 }
  else { s with controllerEnable := p.wdata.getLsbD 0 }

/-- A write to `COMMAND` of an enabled controller that is not busy. -/
def acceptCommand (p : Payload) : I2cMaster :=
  let t := { s with
    done := false, commandTimer := 0, phaseCount := 0
    commandAddress := p.wdata.getLsbD 5, readNack := p.wdata.getLsbD 4 }
  let refused := { t with done := true, busStuck := true }
  let command := p.wdata.extractLsb' 0 4
  if command = 0b0001 then { t with state := .startRelease, busy := true }
  else if command = 0b0010 then { t with state := .stopSdaLow, busy := true }
  else if command = 0b0100 then
    if s.busActive then { t with state := .writeBitLow, busy := true, bitIndex := 7, txShift := s.txData } else refused
  else if command = 0b1000 then
    if s.busActive then { t with state := .readBitLow, busy := true, bitIndex := 7, rxShift := 0, rxValid := false }
    else refused
  else refused

/-! ## The commands -/

/-- The registers when a command ends. -/
def finish : I2cMaster := { s with state := .idle, busy := false, done := true, phaseCount := 0, commandTimer := 0 }

/-- The next state, from the start of its phase. -/
def goto (state : I2cState) : I2cMaster := { s with state := state, phaseCount := 0 }

/-- The same phase from its start: a line that has to be high is low. -/
def wait : I2cMaster := { s with phaseCount := 0 }

/-- A phase of `div + 1` cycles, and what comes then. -/
def phase (div : BitVec 32) (after : I2cMaster) : I2cMaster :=
  if s.phaseCount = div then after else { s with phaseCount := s.phaseCount + 1 }

/-- The registers after a cycle of the state machine. -/
def step (div : BitVec 32) (l : Lines) : I2cMaster :=
  match s.state with
  | .startRelease => if l.scl && l.sda then s.phase div (s.goto .startSdaLow) else s.wait
  | .startSdaLow => if l.scl then s.phase div (s.goto .startSclLow) else s.wait
  | .startSclLow => s.phase div { s.finish with busActive := true }
  | .stopSdaLow => s.phase div (s.goto .stopSclHigh)
  | .stopSclHigh => if l.scl then s.phase div (s.goto .stopRelease) else s.wait
  | .stopRelease => s.phase div { s.finish with busActive := false, busStuck := !l.scl || !l.sda }
  | .writeBitLow => s.phase div (s.goto .writeBitHigh)
  | .writeBitHigh =>
    if l.scl then
      if s.txShift.getLsbD s.bitIndex.toNat && !l.sda then { s.finish with arbitrationLost := true, busActive := false }
      else s.phase div
        (if s.bitIndex = 0 then s.goto .writeAckLow else { s.goto .writeBitLow with bitIndex := s.bitIndex - 1 })
    else s.wait
  | .writeAckLow => s.phase div (s.goto .writeAckHigh)
  | .writeAckHigh =>
    if l.scl then
      s.phase div { s.goto .writeAckFinish with
        addrNack := s.addrNack || (l.sda && s.commandAddress)
        dataNack := s.dataNack || (l.sda && !s.commandAddress) }
    else s.wait
  | .writeAckFinish => s.phase div s.finish
  | .readBitLow => s.phase div (s.goto .readBitHigh)
  | .readBitHigh =>
    if l.scl then
      let bit := 1#8 <<< s.bitIndex.toNat
      let t := { s with rxShift := if l.sda then s.rxShift ||| bit else s.rxShift &&& ~~~bit }
      s.phase div
        (if s.bitIndex = 0 then t.goto .readAckLow else { t.goto .readBitLow with bitIndex := s.bitIndex - 1 })
    else s.wait
  | .readAckLow => s.phase div (s.goto .readAckHigh)
  | .readAckHigh => if l.scl then s.phase div (s.goto .readAckFinish) else s.wait
  | .readAckFinish => s.phase div { s.finish with rxData := s.rxShift, rxValid := true }
  | .recoverLow => s.phase div (s.goto .recoverHigh)
  | .recoverHigh =>
    if l.scl then
      s.phase div
        (if s.recoveryCount = 8 || l.sda then { s.goto .stopSdaLow with busActive := true, recoveryCount := 0 }
        else { s.goto .recoverLow with recoveryCount := s.recoveryCount + 1 })
    else s.wait
  | .idle => { s.finish with busStuck := true, busActive := false }

/-- A cycle of a command: the timeout, or the state machine.  `div` and `timeout` are the values that were in the
registers before the cycle. -/
def run (div timeout : BitVec 32) (l : Lines) : I2cMaster :=
  if timeout ≠ 0 ∧ s.commandTimer = timeout - 1 then
    { s.finish with timeoutError := true, busStuck := !l.scl || !l.sda, busActive := false }
  else
    let t := s.step div l
    if t.busy then { t with commandTimer := s.commandTimer + 1 } else t

/-- The registers after a cycle. -/
def next (req : Option Payload) (l : Lines) : I2cMaster :=
  match req.filter Payload.write with
  | none => if s.busy then s.run s.clockDiv s.timeout l else s
  | some p =>
    let t := s.writeRegisters p
    if offset p = 0x000 && p.wstrb.getLsbD 0 then t.writeControl p
    else if offset p = 0x014 && p.wstrb.getLsbD 0 && s.controllerEnable && !s.busy then t.acceptCommand p
    else if s.busy then t.run s.clockDiv s.timeout l
    else t

/-- The controller with free requests and free lines; the parameters are the reset values of `CLOCK_DIV` and
`TIMEOUT`. -/
def machine (resetClockDiv resetTimeout : BitVec 32) : Machine I2cMaster (Option Payload × Lines) where
  reset := { clockDiv := resetClockDiv, timeout := resetTimeout }
  next s i := s.next i.1 i.2

end I2cMaster

end SocRV
