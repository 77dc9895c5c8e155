import SocRV.Sim.Commands

/-!
# The end of a run

The loop stops in the first cycle with a verdict, in the state the UART and the performance window have reached by
then.  A run that passes was stopped by a passing test status with the output complete.
-/

namespace SocRV

variable (cfg : SimConfig) (trace : Nat → DutCycle)

/-- The level of `uart_tx` in a cycle. -/
def txLevel (cycle : Nat) : Bool := (trace cycle).uartTx

/-- The state of the UART at the start of a cycle. -/
def simAt (cycle : Nat) : UartSim := uartAt cfg.toUartConfig (txLevel trace) cycle

/-- The performance window at the start of a cycle. -/
def statsAt : Nat → PerfStats
  | 0 => {}
  | n + 1 => (statsAt n).observe cfg n (trace n).retiredCount (trace n).testCode

/-- The verdict of a cycle. -/
def verdictAt (cycle : Nat) : Option Stop := verdict cfg cycle (trace cycle) (simAt cfg trace (cycle + 1))

variable {cfg trace}

/-- The loop has no verdict, or the first one of the cycles left to it. -/
theorem simLoop_cases (left cycle : Nat) :
    let r := simLoop cfg trace left cycle (simAt cfg trace cycle) (statsAt cfg trace cycle)
    r.2.2 = {} ∨ ∃ t, cycle ≤ t ∧ t < cycle + left ∧ verdictAt cfg trace t = some r.2.2 ∧
      r.1 = simAt cfg trace (t + 1) ∧ r.2.1 = statsAt cfg trace (t + 1) := by
  induction left generalizing cycle with
  | zero => exact .inl rfl
  | succ left ih =>
    have hsim : (simAt cfg trace cycle).step cfg.toUartConfig cycle (trace cycle).uartTx =
        simAt cfg trace (cycle + 1) := rfl
    have hstats : (statsAt cfg trace cycle).observe cfg cycle (trace cycle).retiredCount (trace cycle).testCode =
        statsAt cfg trace (cycle + 1) := rfl
    dsimp only [simLoop]
    rw [hsim, hstats]
    cases hv : verdict cfg cycle (trace cycle) (simAt cfg trace (cycle + 1)) with
    | some stop => exact .inr ⟨cycle, Nat.le_refl _, by omega, hv, rfl, rfl⟩
    | none =>
      rcases ih (cycle + 1) with h | ⟨t, hle, hlt, h⟩
      · exact .inl h
      · exact .inr ⟨t, by omega, by omega, h⟩

/-- The loop stops in the first cycle with a verdict. -/
theorem simLoop_stops {left cycle t : Nat} {stop : Stop} (hle : cycle ≤ t) (hlt : t < cycle + left)
    (hnone : ∀ u, cycle ≤ u → u < t → verdictAt cfg trace u = none) (hstop : verdictAt cfg trace t = some stop) :
    simLoop cfg trace left cycle (simAt cfg trace cycle) (statsAt cfg trace cycle) =
      (simAt cfg trace (t + 1), statsAt cfg trace (t + 1), stop) := by
  induction left generalizing cycle with
  | zero => omega
  | succ left ih =>
    have hsim : (simAt cfg trace cycle).step cfg.toUartConfig cycle (trace cycle).uartTx =
        simAt cfg trace (cycle + 1) := rfl
    have hstats : (statsAt cfg trace cycle).observe cfg cycle (trace cycle).retiredCount (trace cycle).testCode =
        statsAt cfg trace (cycle + 1) := rfl
    dsimp only [simLoop]
    rw [hsim, hstats]
    by_cases heq : cycle = t
    · subst heq
      rw [show verdict cfg cycle (trace cycle) (simAt cfg trace (cycle + 1)) = some stop from hstop]
    · rw [show verdict cfg cycle (trace cycle) (simAt cfg trace (cycle + 1)) = none from
        hnone cycle (Nat.le_refl _) (by omega)]
      exact ih (by omega) (by omega) fun u hu => hnone u (by omega)

/-- A verdict that passes: the test reports a pass, and the output is complete. -/
theorem verdict_pass {cycle : Nat} {dut : DutCycle} {s : UartSim} {stop : Stop}
    (h : verdict cfg cycle dut s = some stop) (hpass : stop.status = .pass) :
    dut.testDone = true ∧ dut.testPass = true ∧ s.checker.outputComplete cfg = true ∧ stop.cycles = cycle := by
  unfold verdict at h
  cases hdiff : dut.difftestFailure with
  | some kind =>
    rw [hdiff] at h
    cases h
    cases hpass
  | none =>
    rw [hdiff] at h
    dsimp only at h
    split_ifs at h with hfault hdone hwait hlast hok hprompt hmax
    all_goals cases h
    case pos => cases hpass
    case pos => cases hpass
    case pos =>
      simp only [Bool.and_eq_true, Bool.not_eq_true', hok, true_and, Bool.not_eq_false] at hwait
      exact ⟨hdone, hok, hwait, rfl⟩
    all_goals cases hpass

/-- A passing test status is a passing verdict when the output is complete and nothing else ends the run. -/
theorem verdict_of_done {cycle : Nat} {dut : DutCycle} {s : UartSim} (hdiff : dut.difftestFailure = none)
    (hfault : dut.cpuFault = false) (hdone : dut.testDone = true) (hpass : dut.testPass = true)
    (hout : s.checker.outputComplete cfg = true) :
    verdict cfg cycle dut s =
      some { status := .pass, exitReason := literal "test_status", cycles := cycle, testCode := dut.testCode } := by
  unfold verdict
  simp [hdiff, hfault, hdone, hpass, hout]

/-- Nothing ends the run before the prompt timeout and the last cycle. -/
theorem verdict_of_quiet {cycle : Nat} {dut : DutCycle} {s : UartSim} (hdiff : dut.difftestFailure = none)
    (hfault : dut.cpuFault = false) (hdone : dut.testDone = false) (htimeout : cycle < cfg.uartPromptTimeout)
    (hmax : cycle + 1 ≠ cfg.maxCycles) : verdict cfg cycle dut s = none := by
  unfold verdict
  simp [hdiff, hfault, hdone, htimeout, hmax]

/-- A result that passes comes from a passing stop, a complete performance window where one is requested, and a passing
evaluation. -/
theorem simFinish_pass {s : UartSim} {stats : PerfStats} {stop : Stop}
    (h : (simFinish cfg s stats stop).status = .pass) :
    stop.status = .pass ∧ (cfg.performanceEnabled = true → stats.complete = true) ∧
      (∀ e ∈ cfg.uartExpect, e <:+: s.checker.transcript) ∧ ∀ r ∈ cfg.uartReject, ¬ r <:+: s.checker.transcript := by
  unfold simFinish at h
  dsimp only at h
  by_cases hinc : (stop.status == .pass && (stats.snapshot cfg).requested && !(stats.snapshot cfg).complete) = true
  · rw [if_pos hinc] at h
    cases h
  · rw [if_neg hinc] at h
    have hpass : stop.status = .pass := by
      split_ifs at h
      exact h
    rw [hpass] at h hinc
    have hchecks : (s.checker.evaluate cfg (SimStatus.pass == .pass) (stats.snapshot cfg).complete).passed = true := by
      by_contra hno
      rw [Bool.not_eq_true] at hno
      rw [hno] at h
      cases h
    refine ⟨hpass, fun hreq => ?_, UartChecker.evaluate_passed _ hchecks⟩
    by_contra hno
    rw [Bool.not_eq_true] at hno
    simp [PerfStats.snapshot, hno, hreq] at hinc

/-- A run that passes ends in a cycle with a passing verdict, and everything after the loop lets it pass. -/
theorem simRun_pass (h : (simRun cfg trace).status = .pass) :
    let last := (simRun cfg trace).cycles
    ((trace last).testDone = true ∧ (trace last).testPass = true) ∧
      (simAt cfg trace (last + 1)).checker.outputComplete cfg = true ∧
      (cfg.performanceEnabled = true → (statsAt cfg trace (last + 1)).complete = true) ∧
      (∀ e ∈ cfg.uartExpect, e <:+: (simAt cfg trace (last + 1)).checker.transcript) ∧
      ∀ r ∈ cfg.uartReject, ¬ r <:+: (simAt cfg trace (last + 1)).checker.transcript := by
  have hcases := @simLoop_cases cfg trace cfg.maxCycles 0
  have hinit : simLoop cfg trace cfg.maxCycles 0 (simAt cfg trace 0) (statsAt cfg trace 0) =
      simLoop cfg trace cfg.maxCycles 0 (UartSim.init cfg.toUartConfig) {} := rfl
  unfold simRun at h ⊢
  rw [hinit] at hcases
  generalize simLoop cfg trace cfg.maxCycles 0 (UartSim.init cfg.toUartConfig) {} = r at h hcases ⊢
  obtain ⟨s, stats, stop⟩ := r
  obtain ⟨hpass, hperf, hexpect, hreject⟩ := simFinish_pass h
  rcases hcases with hnone | ⟨t, -, -, hverdict, hsim, hstats⟩
  · dsimp only at hnone
    rw [hnone] at hpass
    cases hpass
  · obtain ⟨hdone, hok, hout, hcycles⟩ := verdict_pass hverdict hpass
    have hlast : (simFinish cfg s stats stop).cycles = t := hcycles
    dsimp only at hsim hstats ⊢
    rw [hlast]
    exact ⟨⟨hdone, hok⟩, hout, hstats ▸ hperf, hsim ▸ hexpect, hsim ▸ hreject⟩

/-- The performance window is complete when the start code and, later, the stop code have been reported. -/
theorem statsAt_complete {n : Nat} (h : (statsAt cfg trace n).complete = true) :
    ∃ a b, a < b ∧ b < n ∧ (trace a).testCode = cfg.perfStartCode ∧ (trace b).testCode = cfg.perfStopCode := by
  have hinv : ((statsAt cfg trace n).started = true → ∃ a, a < n ∧ (trace a).testCode = cfg.perfStartCode) ∧
      ((statsAt cfg trace n).complete = true →
        ∃ a b, a < b ∧ b < n ∧ (trace a).testCode = cfg.perfStartCode ∧ (trace b).testCode = cfg.perfStopCode) := by
    clear h
    induction n with
    | zero => exact ⟨nofun, nofun⟩
    | succ n ih =>
      have hstarted : (statsAt cfg trace n).started = true →
          ∃ a, a < n + 1 ∧ (trace a).testCode = cfg.perfStartCode := by
        intro h
        obtain ⟨a, ha, hcode⟩ := ih.1 h
        exact ⟨a, Nat.lt_succ_of_lt ha, hcode⟩
      have hcomplete : (statsAt cfg trace n).complete = true → ∃ a b, a < b ∧ b < n + 1 ∧
          (trace a).testCode = cfg.perfStartCode ∧ (trace b).testCode = cfg.perfStopCode := by
        intro h
        obtain ⟨a, b, hab, hb, hcodes⟩ := ih.2 h
        exact ⟨a, b, hab, Nat.lt_succ_of_lt hb, hcodes⟩
      rw [statsAt, PerfStats.observe]
      dsimp only
      split_ifs with henabled hstart hstop
      · exact ⟨hstarted, hcomplete⟩
      · rw [Bool.and_eq_true, beq_iff_eq] at hstart
        exact ⟨fun _ => ⟨n, Nat.lt_succ_self n, hstart.2⟩, hcomplete⟩
      · simp only [Bool.and_eq_true, beq_iff_eq] at hstop
        obtain ⟨a, ha, hcode⟩ := ih.1 hstop.1.1
        exact ⟨hstarted, fun _ => ⟨a, n, ha, Nat.lt_succ_self n, hcode, hstop.2⟩⟩
      · exact ⟨hstarted, hcomplete⟩
  exact hinv.2 h

end SocRV
