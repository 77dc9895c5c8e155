import Mathlib.Algebra.Group.Nat.Defs
import Mathlib.Data.Nat.Init
import SocRV.Lib.Counting
import SocRV.Sim.SimControl

/-!
# The commands of a run

What the testbench has sent and seen at the start of a cycle depends on the UART configuration and on the level of
`uart_tx` so far, not on how the loop ends.  A command that has been started is shifted out in full, and until then the
next one is not started.
-/

namespace SocRV

variable (cfg : UartConfig) (tx : Nat → Bool)

/-- The state at the start of a cycle. -/
def uartAt : Nat → UartSim
  | 0 => UartSim.init cfg
  | n + 1 => (uartAt n).step cfg n (tx n)

/-- The level of `uart_rx` in a cycle. -/
def rxLevel (cycle : Nat) : Bool := (uartAt cfg tx cycle).stimulus.level cfg.uartCyclesPerBit cycle

/-- Command `k` is started in a cycle, to be on the line one bit later. -/
def StartsCommand (k cycle : Nat) : Prop :=
  (uartAt cfg tx cycle).commandsSent = k ∧ (uartAt cfg tx (cycle + 1)).commandsSent = k + 1

/-- Command `k`. -/
def command (k : Nat) : Bytes := cfg.commands.getD k []

/-- The cycle in which command `k`, started in the cycle `start`, has been shifted out. -/
def commandEnd (k start : Nat) : Nat := start + cfg.uartCyclesPerBit + serialTime cfg.uartCyclesPerBit (command cfg k)

/-- A byte decoded in a cycle completes the prompt. -/
def PromptIn (cycle : Nat) : Prop :=
  ∃ byte, (uartAt cfg tx (cycle + 1)).checker.transcript = (uartAt cfg tx cycle).checker.transcript ++ [byte] ∧
    cfg.uartPrompt <:+ (uartAt cfg tx (cycle + 1)).checker.transcript

/-! ## One cycle -/

section Step

variable (cycle : Nat) (level : Bool)

/-- A byte goes to the transcript, and counts as a prompt when it completes one. -/
theorem UartChecker.observe_prompt (c : UartChecker) (byte : BitVec 8) :
    (c.observe cfg.uartPrompt byte cycle).promptCount =
      c.promptCount + if cfg.uartPrompt ≠ [] ∧ cfg.uartPrompt <:+ c.transcript ++ [byte] then 1 else 0 := by
  unfold UartChecker.observe endsWith
  have hcond : (!cfg.uartPrompt.isEmpty && cfg.uartPrompt.isSuffixOf (c.transcript ++ [byte])) = true ↔
      cfg.uartPrompt ≠ [] ∧ cfg.uartPrompt <:+ c.transcript ++ [byte] := by simp
  by_cases h : cfg.uartPrompt ≠ [] ∧ cfg.uartPrompt <:+ c.transcript ++ [byte]
  · rw [if_pos h]
    dsimp only
    rw [if_pos (hcond.mpr h)]
  · rw [if_neg h]
    dsimp only
    rw [if_neg (mt hcond.mp h)]
    rfl

/-- A byte that is observed joins the transcript. -/
@[simp] theorem UartChecker.observe_transcript (c : UartChecker) (byte : BitVec 8) :
    (c.observe cfg.uartPrompt byte cycle).transcript = c.transcript ++ [byte] := by
  unfold UartChecker.observe
  dsimp only
  split_ifs <;> rfl

/-- Observing a byte sends no command. -/
@[simp] theorem UartChecker.observe_commandSent (c : UartChecker) (byte : BitVec 8) :
    (c.observe cfg.uartPrompt byte cycle).commandSent = c.commandSent := by
  unfold UartChecker.observe
  dsimp only
  split_ifs <;> rfl

/-- A prompt that is counted has been seen. -/
theorem UartChecker.observe_promptSeen (c : UartChecker) (byte : BitVec 8)
    (hc : 0 < c.promptCount → c.promptSeen = true) :
    0 < (c.observe cfg.uartPrompt byte cycle).promptCount →
      (c.observe cfg.uartPrompt byte cycle).promptSeen = true := by
  unfold UartChecker.observe
  dsimp only
  split_ifs
  · exact fun _ => rfl
  · exact fun _ => rfl
  · exact hc

/-- What a cycle leaves as it is when no byte is decoded in it. -/
structure UartSim.Same (s s' : UartSim) : Prop where
  commandsSent : s'.commandsSent = s.commandsSent
  stimulus : s'.stimulus = s.stimulus
  transcript : s'.checker.transcript = s.checker.transcript
  promptCount : s'.checker.promptCount = s.checker.promptCount
  promptSeen : s'.checker.promptSeen = s.checker.promptSeen
  commandSent : s'.checker.commandSent = s.checker.commandSent

/-- The framing error is of no account to the commands and the transcript. -/
theorem UartSim.same_framing (s : UartSim) :
    s.Same (if s.uart.framingError then { s with checker := s.checker.markFramingError } else s) := by
  split_ifs <;> exact ⟨rfl, rfl, rfl, rfl, rfl, rfl⟩

/-- What a cycle can do: nothing, or take a byte. -/
theorem UartSim.step_cases (s : UartSim) :
    s.Same (s.step cfg cycle level) ∨
      ∃ (byte : BitVec 8) (uart : UartDecoder),
        UartSim.Same (({ s with uart } : UartSim).receive cfg cycle byte) (s.step cfg cycle level) := by
  unfold UartSim.step
  dsimp only
  cases hbyte : (s.uart.sample cfg.uartCyclesPerBit level).2 with
  | none =>
    left
    have h := UartSim.same_framing { s with uart := (s.uart.sample cfg.uartCyclesPerBit level).1 }
    exact ⟨h.1, h.2, h.3, h.4, h.5, h.6⟩
  | some byte =>
    right
    exact ⟨byte, (s.uart.sample cfg.uartCyclesPerBit level).1, UartSim.same_framing _⟩

/-- The stimulus with the next command, started in a cycle. -/
def UartSim.nextStimulus (cfg : UartConfig) (s : UartSim) (cycle : Nat) : UartStimulus :=
  (if s.commandsSent != 0 then s.stimulus.load (cfg.commands.getD s.commandsSent []) else s.stimulus).start
    (cycle + cfg.uartCyclesPerBit)

/-- A cycle leaves the commands as they are, or starts the next one when none is in transmission. -/
theorem UartSim.step_commands (s : UartSim) :
    ((s.step cfg cycle level).commandsSent = s.commandsSent ∧ (s.step cfg cycle level).stimulus = s.stimulus ∧
        (s.step cfg cycle level).checker.commandSent = s.checker.commandSent) ∨
      (s.commandsSent < cfg.commands.length ∧
        (s.stimulus.started = false ∨ s.stimulus.finished cfg.uartCyclesPerBit cycle = true) ∧
        (s.step cfg cycle level).commandsSent = s.commandsSent + 1 ∧
        (s.step cfg cycle level).stimulus = s.nextStimulus cfg cycle ∧
        (s.step cfg cycle level).checker.commandSent = true) := by
  rcases UartSim.step_cases cfg cycle level s with h | ⟨byte, uart, h⟩
  · exact .inl ⟨h.commandsSent, h.stimulus, h.commandSent⟩
  · rw [h.commandsSent, h.stimulus, h.commandSent]
    unfold UartSim.receive
    dsimp only
    split_ifs with hsend
    · right
      simp only [UartSim.sendsNext, Bool.and_eq_true, Bool.or_eq_true, decide_eq_true_eq, Bool.not_eq_true'] at hsend
      exact ⟨hsend.1.1, hsend.2, rfl, rfl, rfl⟩
    · left
      exact ⟨rfl, rfl, UartChecker.observe_commandSent cfg cycle _ byte⟩

/-- A cycle adds no prompt, or its byte completes one; the command that waits for it is then started. -/
theorem UartSim.step_prompt (s : UartSim) :
    (s.step cfg cycle level).checker.promptCount = s.checker.promptCount ∨
      ((s.step cfg cycle level).checker.promptCount = s.checker.promptCount + 1 ∧
        (∃ byte, (s.step cfg cycle level).checker.transcript = s.checker.transcript ++ [byte] ∧
          cfg.uartPrompt <:+ (s.step cfg cycle level).checker.transcript) ∧
        (s.commandsSent < cfg.commands.length → s.commandsSent ≤ s.checker.promptCount →
          s.stimulus.started = false → (s.step cfg cycle level).commandsSent = s.commandsSent + 1)) := by
  rcases UartSim.step_cases cfg cycle level s with h | ⟨byte, uart, h⟩
  · exact .inl h.promptCount
  · rw [h.commandsSent, h.transcript, h.promptCount]
    have hprompt := UartChecker.observe_prompt cfg cycle s.checker byte
    unfold UartSim.receive
    by_cases hsuffix : cfg.uartPrompt ≠ [] ∧ cfg.uartPrompt <:+ s.checker.transcript ++ [byte]
    · right
      rw [if_pos hsuffix] at hprompt
      refine ⟨?_, ⟨byte, ?_, ?_⟩, ?_⟩
      · dsimp only
        split_ifs <;> exact hprompt
      · dsimp only
        split_ifs <;> exact UartChecker.observe_transcript cfg cycle _ byte
      · dsimp only
        split_ifs
        all_goals
          exact (UartChecker.observe_transcript cfg cycle s.checker byte) ▸ hsuffix.2
      · intro hlt hle hidle
        have hsend : ({ s with uart, checker := s.checker.observe cfg.uartPrompt byte cycle } : UartSim).sendsNext cfg
            cycle = true := by
          simp only [UartSim.sendsNext, hprompt, hidle, Bool.not_false, Bool.true_or, Bool.and_true, Bool.and_eq_true,
            decide_eq_true_eq]
          exact ⟨hlt, Nat.lt_succ_of_le hle⟩
        dsimp only
        rw [if_pos hsend]
        rfl
    · left
      rw [if_neg hsuffix, Nat.add_zero] at hprompt
      dsimp only
      split_ifs <;> exact hprompt

end Step

/-! ## Whole runs -/

/-- The commands sent are counted up, by one at most. -/
theorem commandsSent_counts : Counts fun t => (uartAt cfg tx t).commandsSent := by
  refine ⟨rfl, fun t => ?_, fun t => ?_⟩
  · rcases UartSim.step_commands cfg t (tx t) (uartAt cfg tx t) with h | h
    · exact Nat.le_of_eq h.1.symm
    · exact Nat.le_trans (Nat.le_succ _) (Nat.le_of_eq h.2.2.1.symm)
  · rcases UartSim.step_commands cfg t (tx t) (uartAt cfg tx t) with h | h
    · exact Nat.le_trans (Nat.le_of_eq h.1) (Nat.le_succ _)
    · exact Nat.le_of_eq h.2.2.1

/-- The prompts are counted up, by one at most. -/
theorem promptCount_counts : Counts fun t => (uartAt cfg tx t).checker.promptCount := by
  refine ⟨rfl, fun t => ?_, fun t => ?_⟩
  · rcases UartSim.step_prompt cfg t (tx t) (uartAt cfg tx t) with h | h
    · exact Nat.le_of_eq h.symm
    · exact Nat.le_trans (Nat.le_succ _) (Nat.le_of_eq h.1.symm)
  · rcases UartSim.step_prompt cfg t (tx t) (uartAt cfg tx t) with h | h
    · exact Nat.le_trans (Nat.le_of_eq h) (Nat.le_succ _)
    · exact Nat.le_of_eq h.1

variable {cfg tx}

/-- A prompt is counted when its last byte is decoded. -/
theorem promptIn_of_count {t k : Nat} (h : (uartAt cfg tx t).checker.promptCount = k)
    (h' : (uartAt cfg tx (t + 1)).checker.promptCount = k + 1) : PromptIn cfg tx t := by
  rcases UartSim.step_prompt cfg t (tx t) (uartAt cfg tx t) with hsame | hnew
  · have : (uartAt cfg tx (t + 1)).checker.promptCount = (uartAt cfg tx t).checker.promptCount := hsame
    omega
  · exact hnew.2.1

/-- Only configured commands are sent. -/
theorem commandsSent_le (t : Nat) : (uartAt cfg tx t).commandsSent ≤ cfg.commands.length := by
  induction t with
  | zero => exact Nat.zero_le _
  | succ t ih =>
    rcases UartSim.step_commands cfg t (tx t) (uartAt cfg tx t) with h | h
    · exact Nat.le_trans (Nat.le_of_eq h.1) ih
    · exact Nat.le_trans (Nat.le_of_eq h.2.2.1) h.1

/-- Before the first command, the stimulus is as it was configured. -/
theorem stimulus_of_none {t : Nat} (h : (uartAt cfg tx t).commandsSent = 0) :
    (uartAt cfg tx t).stimulus = { bytes := cfg.uartCommand } := by
  induction t with
  | zero => rfl
  | succ t ih =>
    rcases UartSim.step_commands cfg t (tx t) (uartAt cfg tx t) with hsame | hnew
    · exact hsame.2.1.trans (ih (hsame.1.symm.trans h))
    · have hsent : (uartAt cfg tx (t + 1)).commandsSent = (uartAt cfg tx t).commandsSent + 1 := hnew.2.2.1
      omega

/-- The checker knows whether a command has been sent. -/
theorem commandSent_iff (t : Nat) :
    (uartAt cfg tx t).checker.commandSent = true ↔ 0 < (uartAt cfg tx t).commandsSent := by
  induction t with
  | zero => simp [uartAt, UartSim.init]
  | succ t ih =>
    rcases UartSim.step_commands cfg t (tx t) (uartAt cfg tx t) with h | h
    · have hsent : (uartAt cfg tx (t + 1)).commandsSent = (uartAt cfg tx t).commandsSent := h.1
      have hmark : (uartAt cfg tx (t + 1)).checker.commandSent = (uartAt cfg tx t).checker.commandSent := h.2.2
      rw [hsent, hmark]
      exact ih
    · have hsent : (uartAt cfg tx (t + 1)).commandsSent = (uartAt cfg tx t).commandsSent + 1 := h.2.2.1
      rw [hsent]
      exact ⟨fun _ => Nat.succ_pos _, fun _ => h.2.2.2.2⟩

/-- A prompt that has been counted has been seen. -/
theorem promptSeen_of_count {t : Nat} (h : 0 < (uartAt cfg tx t).checker.promptCount) :
    (uartAt cfg tx t).checker.promptSeen = true := by
  induction t with
  | zero => exact absurd h (Nat.lt_irrefl 0)
  | succ t ih =>
    rw [uartAt] at h ⊢
    rcases UartSim.step_cases cfg t (tx t) (uartAt cfg tx t) with hsame | ⟨byte, uart, hsame⟩
    · rw [hsame.promptCount] at h
      rw [hsame.promptSeen]
      exact ih h
    · rw [hsame.promptCount] at h
      rw [hsame.promptSeen]
      have hkeep := UartChecker.observe_promptSeen cfg t _ byte ih
      unfold UartSim.receive at h ⊢
      dsimp only at h ⊢
      split_ifs at h ⊢ <;> exact hkeep h

/-- With a command configured, the first prompt starts it. -/
theorem commandsSent_pos (hcmd : cfg.commands ≠ []) {t : Nat} (h : 0 < (uartAt cfg tx t).checker.promptCount) :
    0 < (uartAt cfg tx t).commandsSent := by
  obtain ⟨s, hst, hs, hs'⟩ := (promptCount_counts cfg tx).exists_step h
  have hpos : 0 < (uartAt cfg tx (s + 1)).commandsSent := by
    rcases Nat.eq_zero_or_pos (uartAt cfg tx s).commandsSent with h0 | h0
    · have hidle : (uartAt cfg tx s).stimulus.started = false := by rw [stimulus_of_none h0]
      rcases UartSim.step_prompt cfg s (tx s) (uartAt cfg tx s) with hsame | hnew
      · have : (uartAt cfg tx (s + 1)).checker.promptCount = (uartAt cfg tx s).checker.promptCount := hsame
        omega
      · have hsend := hnew.2.2 (by rw [h0]; exact List.length_pos_iff.mpr hcmd) (by rw [h0]; exact Nat.zero_le _) hidle
        exact Nat.lt_of_lt_of_eq (Nat.succ_pos _) hsend.symm
    · exact Nat.lt_of_lt_of_le h0 ((commandsSent_counts cfg tx).up s)
  exact Nat.lt_of_lt_of_le hpos ((commandsSent_counts cfg tx).mono hst)

section Started

variable {k s : Nat} (h : StartsCommand cfg tx k s)

include h

/-- The command started is a configured one, and is what the stimulus then shifts out. -/
theorem StartsCommand.stimulus :
    (uartAt cfg tx (s + 1)).stimulus =
      { bytes := command cfg k, startCycle := s + cfg.uartCyclesPerBit, started := true } := by
  obtain ⟨hk, hk'⟩ := h
  rcases UartSim.step_commands cfg s (tx s) (uartAt cfg tx s) with hsame | ⟨hlt, -, -, hstim, -⟩
  · have : (uartAt cfg tx (s + 1)).commandsSent = (uartAt cfg tx s).commandsSent := hsame.1
    omega
  · refine Eq.trans hstim ?_
    unfold UartSim.nextStimulus command
    rw [hk]
    by_cases h0 : k = 0
    · subst h0
      have hfirst : cfg.commands.getD 0 [] = cfg.uartCommand := by
        unfold UartConfig.commands at hlt ⊢
        split_ifs at hlt ⊢ with hempty
        · exact absurd hlt (Nat.not_lt_zero _)
        · rfl
      rw [stimulus_of_none hk, hfirst]
      rfl
    · rw [if_pos (by simpa using h0)]
      rfl

/-- It stays there until the next one is started. -/
theorem StartsCommand.stimulus_of_sent {u : Nat} (hu : s < u) (hsent : (uartAt cfg tx u).commandsSent = k + 1) :
    (uartAt cfg tx u).stimulus =
      { bytes := command cfg k, startCycle := s + cfg.uartCyclesPerBit, started := true } := by
  induction u, hu using Nat.le_induction with
  | base => exact h.stimulus
  | succ u hu ih =>
    have hmono : (uartAt cfg tx (s + 1)).commandsSent ≤ (uartAt cfg tx u).commandsSent :=
      (commandsSent_counts cfg tx).mono hu
    have hstart := h.2
    rcases UartSim.step_commands cfg u (tx u) (uartAt cfg tx u) with hsame | hnew
    · exact Eq.trans hsame.2.1 (ih (hsame.1.symm.trans hsent))
    · have : (uartAt cfg tx (u + 1)).commandsSent = (uartAt cfg tx u).commandsSent + 1 := hnew.2.2.1
      omega

/-- The command is finished in a cycle when it has been shifted out. -/
theorem StartsCommand.finished_iff {u t : Nat} (hu : s < u) (hsent : (uartAt cfg tx u).commandsSent = k + 1) :
    (uartAt cfg tx u).stimulus.finished cfg.uartCyclesPerBit t = true ↔ commandEnd cfg k s ≤ t := by
  rw [h.stimulus_of_sent hu hsent]
  simp only [UartStimulus.finished, Bool.not_true, Bool.false_or, commandEnd, serialTime]
  split_ifs with hlt
  · rw [decide_eq_true_eq] at hlt
    exact ⟨fun hfalse => hfalse.elim, fun hle => by omega⟩
  · rw [decide_eq_true_eq] at hlt ⊢
    omega

/-- Until it has been shifted out, no other command is started. -/
theorem StartsCommand.holds {u : Nat} (hu : s < u) (hend : u ≤ commandEnd cfg k s) :
    (uartAt cfg tx u).commandsSent = k + 1 := by
  induction u, hu using Nat.le_induction with
  | base => exact h.2
  | succ u hu ih =>
    have hsent := ih (by omega)
    rcases UartSim.step_commands cfg u (tx u) (uartAt cfg tx u) with hsame | ⟨-, hidle, -⟩
    · exact Eq.trans hsame.1 hsent
    · rcases hidle with hidle | hidle
      · rw [h.stimulus_of_sent hu hsent] at hidle
        cases hidle
      · have := (h.finished_iff hu hsent).mp hidle
        omega

/-- The next command is started when this one has been shifted out. -/
theorem StartsCommand.end_le {s' : Nat} (h' : StartsCommand cfg tx (k + 1) s') : commandEnd cfg k s ≤ s' := by
  have hlt : s < s' := by
    by_contra hle
    have hmono : (uartAt cfg tx s').commandsSent ≤ (uartAt cfg tx s).commandsSent :=
      (commandsSent_counts cfg tx).mono (Nat.le_of_not_lt hle)
    rw [h.1, h'.1] at hmono
    omega
  rcases UartSim.step_commands cfg s' (tx s') (uartAt cfg tx s') with hsame | ⟨-, hidle, -⟩
  · have : (uartAt cfg tx (s' + 1)).commandsSent = (uartAt cfg tx s').commandsSent := hsame.1
    have h1 := h'.1
    have h2 := h'.2
    omega
  · rcases hidle with hidle | hidle
    · rw [h.stimulus_of_sent hlt h'.1] at hidle
      cases hidle
    · exact (h.finished_iff hlt h'.1).mp hidle

/-- The line carries the frames of the command. -/
theorem StartsCommand.wave {c : Nat} (hc : c < serialTime cfg.uartCyclesPerBit (command cfg k)) :
    rxLevel cfg tx (s + cfg.uartCyclesPerBit + c) = serialWave cfg.uartCyclesPerBit (command cfg k) c := by
  have hpos : 0 < cfg.uartCyclesPerBit := by
    rcases Nat.eq_zero_or_pos cfg.uartCyclesPerBit with h0 | h0
    · simp [h0, serialTime] at hc
    · exact h0
  have hu : s < s + cfg.uartCyclesPerBit + c := by omega
  have hstim := h.stimulus_of_sent hu (h.holds hu (by unfold commandEnd; omega))
  have hlevel := UartStimulus.level_eq_wave cfg.uartCyclesPerBit
    { bytes := command cfg k, startCycle := s + cfg.uartCyclesPerBit, started := true } rfl hc
  unfold rxLevel
  rw [hstim]
  exact hlevel

end Started

end SocRV
