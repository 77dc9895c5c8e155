import SocRV.Sim.UartChecker

/-!
# The simulation loop

`SimControl::run` steps the design under test, decodes its UART output, starts the next configured command when a prompt
has come, and decides about the run.  What the design shows in a cycle, and whether the comparison with the reference
model has failed, are inputs.
-/

namespace SocRV

/-- What the design under test shows in a cycle, and the kind of mismatch the reference model has found, if any. -/
structure DutCycle where
  uartTx : Bool := true
  retiredCount : Nat := 0
  testCode : BitVec 32 := 0
  testDone : Bool := false
  testPass : Bool := false
  cpuFault : Bool := false
  difftestFailure : Option Bytes := none
  deriving DecidableEq, Repr

/-! ## The performance window -/

/-- `PerfStats`. -/
structure PerfStats where
  started : Bool := false
  complete : Bool := false
  totalCommits : Nat := 0
  startCycle : Nat := 0
  endCycle : Nat := 0
  startCommits : Nat := 0
  endCommits : Nat := 0
  deriving DecidableEq, Repr

/-- `PerfStats::observe`. -/
def PerfStats.observe (cfg : SimConfig) (s : PerfStats) (cycle retiredCount : Nat) (testCode : BitVec 32) :
    PerfStats :=
  let s := { s with totalCommits := s.totalCommits + retiredCount }
  if !cfg.performanceEnabled then s
  else if !s.started && testCode == cfg.perfStartCode then
    { s with started := true, startCycle := cycle, startCommits := s.totalCommits }
  else if s.started && !s.complete && testCode == cfg.perfStopCode then
    { s with complete := true, endCycle := cycle, endCommits := s.totalCommits }
  else s

/-- The whole-number part of `PerfSnapshot`. -/
structure PerfSnapshot where
  requested : Bool
  complete : Bool
  startCycle : Nat := 0
  endCycle : Nat := 0
  cycles : Nat := 0
  commits : Nat := 0
  deriving DecidableEq, Repr

/-- `PerfStats::snapshot`. -/
def PerfStats.snapshot (cfg : SimConfig) (s : PerfStats) : PerfSnapshot :=
  if !s.complete then { requested := cfg.performanceEnabled, complete := false }
  else
    { requested := cfg.performanceEnabled
      complete := true
      startCycle := s.startCycle
      endCycle := s.endCycle
      cycles := s.endCycle - s.startCycle
      commits := s.endCommits - s.startCommits }

/-! ## The UART -/

/-- The testbench's side of the UART. -/
structure UartSim where
  uart : UartDecoder := {}
  checker : UartChecker := {}
  stimulus : UartStimulus
  commandsSent : Nat := 0
  deriving DecidableEq, Repr

/-- `uart_commands`. -/
def UartConfig.commands (cfg : UartConfig) : List Bytes :=
  if cfg.uartCommand.isEmpty then [] else cfg.uartCommand :: cfg.uartFollowupCommands

/-- The state before the first cycle. -/
def UartSim.init (cfg : UartConfig) : UartSim := { stimulus := { bytes := cfg.uartCommand } }

/-- The next command is to be sent: one is left, a prompt has come for it, and none is in transmission. -/
def UartSim.sendsNext (cfg : UartConfig) (s : UartSim) (cycle : Nat) : Bool :=
  decide (s.commandsSent < cfg.commands.length) && decide (s.commandsSent < s.checker.promptCount) &&
    (!s.stimulus.started || s.stimulus.finished cfg.uartCyclesPerBit cycle)

/-- Send it. -/
def UartSim.send (cfg : UartConfig) (s : UartSim) (cycle : Nat) : UartSim :=
  let stimulus := if s.commandsSent != 0 then s.stimulus.load (cfg.commands.getD s.commandsSent []) else s.stimulus
  let commandCycle := cycle + cfg.uartCyclesPerBit
  { s with
    stimulus := stimulus.start commandCycle
    checker := s.checker.markCommandSent commandCycle
    commandsSent := s.commandsSent + 1 }

/-- A decoded byte: the checker sees it, then the next command is sent if it is time. -/
def UartSim.receive (cfg : UartConfig) (s : UartSim) (cycle : Nat) (byte : BitVec 8) : UartSim :=
  let s := { s with checker := s.checker.observe cfg.uartPrompt byte cycle }
  if s.sendsNext cfg cycle then s.send cfg cycle else s

/-- The UART part of the loop body. -/
def UartSim.step (cfg : UartConfig) (cycle : Nat) (tx : Bool) (s : UartSim) : UartSim :=
  let sampled := s.uart.sample cfg.uartCyclesPerBit tx
  let s := { s with uart := sampled.1 }
  let s := match sampled.2 with
    | some byte => s.receive cfg cycle byte
    | none => s
  if s.uart.framingError then { s with checker := s.checker.markFramingError } else s

/-! ## The verdict -/

/-- `result.status`. -/
inductive SimStatus where
  | noResult
  | pass
  | fail
  | timeout
  | diffMismatch
  deriving DecidableEq, Repr

/-- How the loop ends. -/
structure Stop where
  status : SimStatus := .noResult
  exitReason : Bytes := literal "no_result"
  cycles : Nat := 0
  testCode : BitVec 32 := 0
  deriving DecidableEq, Repr

/-- The rest of the loop body: whether the loop ends in this cycle, and how. -/
def verdict (cfg : SimConfig) (cycle : Nat) (dut : DutCycle) (s : UartSim) : Option Stop :=
  match dut.difftestFailure with
  | some kind => some { status := .diffMismatch, exitReason := literal "difftest_" ++ kind, cycles := cycle }
  | none =>
    if dut.cpuFault then
      some { status := .fail, exitReason := literal "cpu_fault", cycles := cycle, testCode := 0xffffffff }
    else if dut.testDone then
      if dut.testPass && !s.checker.outputComplete cfg then
        if cycle + 1 = cfg.maxCycles then
          some { status := .timeout, exitReason := literal "uart_output_timeout", cycles := cfg.maxCycles }
        else none
      else
        some
          { status := if dut.testPass then .pass else .fail
            exitReason := literal "test_status"
            cycles := cycle
            testCode := dut.testCode }
    else if !cfg.uartCommand.isEmpty && !s.stimulus.started && decide (cfg.uartPromptTimeout ≤ cycle) then
      some { status := .fail, exitReason := literal "uart_prompt_timeout", cycles := cycle }
    else if cycle + 1 = cfg.maxCycles then
      some { status := .timeout, exitReason := literal "max_cycles", cycles := cfg.maxCycles }
    else none

/-- The loop, for the given number of cycles. -/
def simLoop (cfg : SimConfig) (trace : Nat → DutCycle) : Nat → Nat → UartSim → PerfStats → UartSim × PerfStats × Stop
  | 0, _, s, stats => (s, stats, {})
  | left + 1, cycle, s, stats =>
    let dut := trace cycle
    let s := s.step cfg.toUartConfig cycle dut.uartTx
    let stats := stats.observe cfg cycle dut.retiredCount dut.testCode
    match verdict cfg cycle dut s with
    | some stop => (s, stats, stop)
    | none => simLoop cfg trace left (cycle + 1) s stats

/-- `SimResult`. -/
structure SimResult where
  status : SimStatus
  exitReason : Bytes
  cycles : Nat
  testCode : BitVec 32
  commits : Nat
  performance : PerfSnapshot
  checker : UartCheckSnapshot
  deriving DecidableEq, Repr

/-- What follows the loop: an incomplete performance window, then a failed check, turn a pass into a failure. -/
def simFinish (cfg : SimConfig) (s : UartSim) (stats : PerfStats) (stop : Stop) : SimResult :=
  let performance := stats.snapshot cfg
  let incomplete := stop.status == .pass && performance.requested && !performance.complete
  let status := if incomplete then .fail else stop.status
  let exitReason := if incomplete then literal "performance_window_incomplete" else stop.exitReason
  let checker := s.checker.evaluate cfg (status == .pass) performance.complete
  let failed := status == .pass && !checker.passed
  { status := if failed then .fail else status
    exitReason := if failed then literal "checker_failed" else exitReason
    cycles := stop.cycles
    testCode := stop.testCode
    commits := stats.totalCommits
    performance := performance
    checker := checker }

/-- `SimControl::run`. -/
def simRun (cfg : SimConfig) (trace : Nat → DutCycle) : SimResult :=
  let (s, stats, stop) := simLoop cfg trace cfg.maxCycles 0 (UartSim.init cfg.toUartConfig) {}
  simFinish cfg s stats stop

end SocRV
