import SocRV.Sim.Verdict

/-!
# The verdict of a simulation

A simulation that passes has found what it was told to look for in the output of the design, and the design has reported
a pass.  That every command was sent and answered is another matter: the checker counts prompts, and a prompt counts
whether or not the command it is taken for an answer to has been sent.
-/

namespace SocRV

/-- What a pass reported in the cycle `last` is to mean. -/
structure SoundPass (cfg : SimConfig) (trace : Nat → DutCycle) (last : Nat) : Prop where
  /-- The design reports that the test is done, and passed. -/
  reported : (trace last).testDone = true ∧ (trace last).testPass = true
  /-- Every command is started, and the line then carries its frames. -/
  sent : ∀ k < cfg.commands.length, ∃ s, StartsCommand cfg.toUartConfig (txLevel trace) k s ∧
    commandEnd cfg.toUartConfig k s ≤ last ∧
    ∀ c < serialTime cfg.uartCyclesPerBit (command cfg.toUartConfig k),
      rxLevel cfg.toUartConfig (txLevel trace) (s + cfg.uartCyclesPerBit + c) =
        serialWave cfg.uartCyclesPerBit (command cfg.toUartConfig k) c
  /-- The commands follow each other. -/
  ordered : ∀ k s s', StartsCommand cfg.toUartConfig (txLevel trace) k s →
    StartsCommand cfg.toUartConfig (txLevel trace) (k + 1) s' → commandEnd cfg.toUartConfig k s ≤ s'
  /-- A prompt is output when the last of them has been sent in full. -/
  prompted : ∃ s t, StartsCommand cfg.toUartConfig (txLevel trace) (cfg.commands.length - 1) s ∧
    commandEnd cfg.toUartConfig (cfg.commands.length - 1) s ≤ t ∧ t ≤ last ∧
    PromptIn cfg.toUartConfig (txLevel trace) t
  /-- The output has every expected string and none that is rejected. -/
  expected : ∀ e ∈ cfg.uartExpect, e <:+: (simAt cfg trace (last + 1)).checker.transcript
  rejected : ∀ r ∈ cfg.uartReject, ¬ r <:+: (simAt cfg trace (last + 1)).checker.transcript
  /-- The performance window, where one is requested, is complete. -/
  performance : cfg.performanceEnabled = true → ∃ a b, a < b ∧ b ≤ last ∧
    (trace a).testCode = cfg.perfStartCode ∧ (trace b).testCode = cfg.perfStopCode

/-- The prompt that completes the count of the checker, one more than there are commands, comes when the last command
has been sent in full. -/
def LastPromptOnTime (cfg : UartConfig) (tx : Nat → Bool) : Prop :=
  ∀ t, (uartAt cfg tx t).checker.promptCount = cfg.commands.length →
    (uartAt cfg tx (t + 1)).checker.promptCount = cfg.commands.length + 1 →
    (uartAt cfg tx (t + 1)).commandsSent = cfg.commands.length ∧
      (uartAt cfg tx (t + 1)).stimulus.finished cfg.uartCyclesPerBit t = true

variable {cfg : SimConfig} {trace : Nat → DutCycle}

theorem commands_length (hcmd : cfg.uartCommand ≠ []) :
    cfg.commands.length = cfg.uartFollowupCommands.length + 1 := by
  unfold UartConfig.commands
  rw [List.isEmpty_eq_false_iff.mpr hcmd, if_neg Bool.false_ne_true, List.length_cons]

/-- Complete output has one more prompt than there are commands. -/
theorem promptCount_of_complete (hcmd : cfg.uartCommand ≠ []) {c : UartChecker} (h : c.outputComplete cfg = true) :
    cfg.commands.length < c.promptCount := by
  unfold UartChecker.outputComplete UartChecker.commandComplete at h
  rw [commands_length hcmd]
  split_ifs at h with hinc
  simp only [List.isEmpty_eq_false_iff.mpr hcmd, Bool.not_false, Bool.true_and, Bool.not_eq_true', Bool.not_eq_false,
    Bool.and_eq_true, decide_eq_true_eq] at hinc
  omega

/-- A pass is sound when the last prompt is on time. -/
theorem sound_of_onTime (hcmd : cfg.uartCommand ≠ [])
    (htime : LastPromptOnTime cfg.toUartConfig (txLevel trace)) (hpass : (simRun cfg trace).status = .pass) :
    SoundPass cfg trace (simRun cfg trace).cycles := by
  obtain ⟨hreported, hout, hperf, hexpect, hreject⟩ := simRun_pass hpass
  generalize (simRun cfg trace).cycles = last at hreported hout hperf hexpect hreject ⊢
  have hlen := commands_length hcmd
  -- the prompt that completes the count was output in some cycle of the run
  obtain ⟨t, htlast, hcount, hcount'⟩ :=
    (promptCount_counts cfg.toUartConfig (txLevel trace)).exists_step (promptCount_of_complete hcmd hout)
  obtain ⟨hsent, hfinished⟩ := htime t hcount hcount'
  have hstarted : ∀ k < cfg.commands.length,
      ∃ s, s < t + 1 ∧ StartsCommand cfg.toUartConfig (txLevel trace) k s := by
    intro k hk
    obtain ⟨s, hst, hs⟩ :=
      (commandsSent_counts cfg.toUartConfig (txLevel trace)).exists_step (Nat.lt_of_lt_of_eq hk hsent.symm)
    exact ⟨s, hst, hs⟩
  obtain ⟨s, hst, hs⟩ := hstarted (cfg.commands.length - 1) (by omega)
  have hend : commandEnd cfg.toUartConfig (cfg.commands.length - 1) s ≤ t := by
    have hsent' : (uartAt cfg.toUartConfig (txLevel trace) (t + 1)).commandsSent = cfg.commands.length - 1 + 1 := by
      rw [hsent]
      omega
    exact (hs.finished_iff hst hsent').mp hfinished
  refine ⟨hreported, ?_, fun k s s' h h' => h.end_le h', ⟨s, t, hs, hend, by omega, promptIn_of_count hcount hcount'⟩,
    hexpect, hreject, fun hreq => ?_⟩
  · intro k hk
    obtain ⟨r, hrt, hr⟩ := hstarted k hk
    refine ⟨r, hr, ?_, fun c hc => hr.wave hc⟩
    by_cases hlast : k = cfg.commands.length - 1
    · have hrs : r = s := (commandsSent_counts cfg.toUartConfig (txLevel trace)).step_unique hr.1 hr.2
        (hlast ▸ hs.1) (hlast ▸ hs.2)
      rw [hrs, hlast]
      omega
    · obtain ⟨r', hrt', hr'⟩ := hstarted (k + 1) (by omega)
      have := hr.end_le hr'
      omega
  · obtain ⟨a, b, hab, hb, hcodes⟩ := statsAt_complete (hperf hreq)
    exact ⟨a, b, hab, by omega, hcodes⟩

/-- The configuration that asks for nothing but the commands, and stops in the cycle `t` or before. -/
def bareConfig (cfg : UartConfig) (t : Nat) : SimConfig :=
  { toUartConfig := cfg, maxCycles := t + 1, uartPromptTimeout := t + 1, checker := [] }

/-- A design with the output `tx` that reports a pass in the cycle `t`. -/
def passAt (tx : Nat → Bool) (t cycle : Nat) : DutCycle :=
  { uartTx := tx cycle, testDone := decide (cycle = t), testPass := true }

/-- If the design reports a pass when the checker has counted enough prompts, the run passes. -/
theorem bare_pass {cfg : UartConfig} (hcmd : cfg.uartCommand ≠ []) {tx : Nat → Bool} {t : Nat}
    (hcount : (uartAt cfg tx (t + 1)).checker.promptCount = cfg.commands.length + 1) :
    (simRun (bareConfig cfg t) (passAt tx t)).status = .pass ∧ (simRun (bareConfig cfg t) (passAt tx t)).cycles = t := by
  have hlen : cfg.commands.length = cfg.uartFollowupCommands.length + 1 := @commands_length (bareConfig cfg t) hcmd
  have hsim : ∀ n, simAt (bareConfig cfg t) (passAt tx t) n = uartAt cfg tx n := fun _ => rfl
  have hne : cfg.commands ≠ [] := by
    intro h
    rw [h] at hlen
    cases hlen
  have hsent : (uartAt cfg tx (t + 1)).checker.commandSent = true :=
    (commandSent_iff _).mpr (commandsSent_pos hne (by omega))
  have hcomplete : (uartAt cfg tx (t + 1)).checker.commandComplete cfg = true := by
    unfold UartChecker.commandComplete
    rw [hsent, hcount, Bool.true_and, decide_eq_true_eq]
    omega
  have hout : (simAt (bareConfig cfg t) (passAt tx t) (t + 1)).checker.outputComplete (bareConfig cfg t) = true := by
    rw [hsim]
    unfold UartChecker.outputComplete
    rw [show (bareConfig cfg t).toUartConfig = cfg from rfl, hcomplete, Bool.not_true, Bool.and_false,
      if_neg Bool.false_ne_true]
    rfl
  have hquiet : ∀ u, 0 ≤ u → u < t → verdictAt (bareConfig cfg t) (passAt tx t) u = none := by
    intro u _ hu
    refine verdict_of_quiet rfl rfl (decide_eq_false (by omega)) ?_ ?_
    · exact Nat.lt_succ_of_lt hu
    · exact fun h => by simp only [bareConfig] at h; omega
  have hstop := @verdict_of_done (bareConfig cfg t) t (passAt tx t t) _ rfl rfl (decide_eq_true rfl) rfl hout
  have hloop : simLoop (bareConfig cfg t) (passAt tx t) (t + 1) 0 (UartSim.init cfg) {} = _ :=
    simLoop_stops (Nat.zero_le t) (by omega) hquiet hstop
  have hseen : (uartAt cfg tx (t + 1)).checker.promptSeen = true := promptSeen_of_count (by omega)
  have hmissing : ∀ complete,
      (uartAt cfg tx (t + 1)).checker.missing (bareConfig cfg t) true complete = [] := by
    intro complete
    unfold UartChecker.missing
    rw [show (bareConfig cfg t).toUartConfig = cfg from rfl, hseen, hsent, hcomplete]
    simp [bareConfig, contains, after, literal]
  have hforbidden : (uartAt cfg tx (t + 1)).checker.forbiddenSeen (bareConfig cfg t) = [] := by
    unfold UartChecker.forbiddenSeen
    simp [bareConfig, contains, after, literal]
  have hevaluate : ∀ complete,
      ((uartAt cfg tx (t + 1)).checker.evaluate (bareConfig cfg t) true complete).passed = true := by
    intro complete
    simp only [UartChecker.evaluate, hmissing, hforbidden, List.isEmpty_nil, Bool.and_self]
  have hrun : simRun (bareConfig cfg t) (passAt tx t) = simFinish (bareConfig cfg t) (uartAt cfg tx (t + 1))
      (statsAt (bareConfig cfg t) (passAt tx t) (t + 1))
      { status := .pass, exitReason := literal "test_status", cycles := t, testCode := (passAt tx t t).testCode } := by
    unfold simRun
    rw [show (bareConfig cfg t).maxCycles = t + 1 from rfl, show (bareConfig cfg t).toUartConfig = cfg from rfl, hloop]
    rfl
  rw [hrun]
  refine ⟨?_, rfl⟩
  have hrequested : ∀ stats : PerfStats, (stats.snapshot (bareConfig cfg t)).requested = false := by
    intro stats
    unfold PerfStats.snapshot
    split_ifs <;> rfl
  unfold simFinish
  dsimp only
  rw [hrequested]
  simp [hevaluate]

/-- The count of the checker is right for every design that reports a pass when it likes, and whatever else is
configured, just when the last prompt is on time. -/
theorem pass_sound_iff (uart : UartConfig) (hcmd : uart.uartCommand ≠ []) (tx : Nat → Bool) :
    (∀ (cfg : SimConfig) (trace : Nat → DutCycle), cfg.toUartConfig = uart → (∀ n, (trace n).uartTx = tx n) →
        (simRun cfg trace).status = .pass → SoundPass cfg trace (simRun cfg trace).cycles) ↔
      LastPromptOnTime uart tx := by
  constructor
  · intro h t hcount hcount'
    obtain ⟨hpass, hcycles⟩ := bare_pass hcmd hcount'
    obtain ⟨s, u, hs, hend, hu, -⟩ := (h (bareConfig uart t) (passAt tx t) rfl (fun _ => rfl) hpass).prompted
    rw [hcycles] at hu
    have hs' : StartsCommand uart tx (uart.commands.length - 1) s := hs
    have hend' : commandEnd uart (uart.commands.length - 1) s ≤ u := hend
    have hpos : 0 < uart.commands.length := by
      rw [show uart.commands.length = _ from @commands_length (bareConfig uart t) hcmd]
      exact Nat.succ_pos _
    have hlt : s < t + 1 := by
      unfold commandEnd at hend'
      omega
    have hsent : (uartAt uart tx (t + 1)).commandsSent = uart.commands.length - 1 + 1 := by
      have hle := @commandsSent_le uart tx (t + 1)
      have hmono : (uartAt uart tx (s + 1)).commandsSent ≤ (uartAt uart tx (t + 1)).commandsSent :=
        (commandsSent_counts uart tx).mono hlt
      have := hs'.2
      omega
    exact ⟨by omega, (hs'.finished_iff hlt hsent).mpr (by omega)⟩
  · intro htime cfg trace hcfg htx hpass
    subst hcfg
    have htx' : txLevel trace = tx := funext htx
    subst htx'
    exact sound_of_onTime hcmd htime hpass

/-! ## A prompt that comes while the command is being sent -/

/-- One command, at two cycles a bit. -/
def promptTwiceConfig : SimConfig :=
  { uartCyclesPerBit := 2, uartCommand := literal "ls", uartPrompt := literal ">", maxCycles := 200 }

/-- The design puts out the prompt twice on end, and reports a pass. -/
def promptTwice (cycle : Nat) : DutCycle :=
  { uartTx := if cycle < 12 then true else serialWave 2 (literal ">>") (cycle - 12)
    testDone := decide (40 ≤ cycle)
    testPass := true }

/-- The run passes with the command half sent. -/
theorem promptTwice_passes :
    promptTwiceConfig.uartCommand ≠ [] ∧ (simRun promptTwiceConfig promptTwice).status = .pass ∧
      ¬ SoundPass promptTwiceConfig promptTwice (simRun promptTwiceConfig promptTwice).cycles := by
  have hcycles : (simRun promptTwiceConfig promptTwice).cycles = 51 := by decide +kernel
  have hstart : StartsCommand promptTwiceConfig.toUartConfig (txLevel promptTwice) 0 31 := by
    unfold StartsCommand
    decide +kernel
  refine ⟨by decide +kernel, by decide +kernel, fun h => ?_⟩
  obtain ⟨s, hs, hend, -⟩ := h.sent 0 (by decide +kernel)
  have heq : s = 31 := (commandsSent_counts promptTwiceConfig.toUartConfig (txLevel promptTwice)).step_unique hs.1 hs.2
    hstart.1 hstart.2
  rw [hcycles, heq] at hend
  exact absurd hend (by decide +kernel)

/-- With the output of that design, some configuration and some report pass without reason. -/
theorem pass_sound_iff_promptTwice :
    (∀ (cfg : SimConfig) (trace : Nat → DutCycle), cfg.toUartConfig = promptTwiceConfig.toUartConfig →
        (∀ n, (trace n).uartTx = txLevel promptTwice n) → (simRun cfg trace).status = .pass →
        SoundPass cfg trace (simRun cfg trace).cycles) ↔
      LastPromptOnTime promptTwiceConfig.toUartConfig (txLevel promptTwice) :=
  pass_sound_iff promptTwiceConfig.toUartConfig (by decide +kernel) (txLevel promptTwice)

end SocRV
