import SocRV.Sim.UartStimulus

/-!
# The checker of the UART output

`UartChecker` collects the bytes of the UART, counts how often what it has collected ends with the prompt, and judges
the run by the configured strings.
-/

namespace SocRV

/-- The bytes of a literal. -/
def literal (s : String) : Bytes := s.toList.map fun c => BitVec.ofNat 8 c.toNat

/-- What follows the first occurrence of a pattern; `std::string::find` finds one just when there is something. -/
def after (pattern : Bytes) : Bytes → Option Bytes
  | [] => if pattern = [] then some [] else none
  | c :: rest =>
    if pattern.isPrefixOf (c :: rest) then some ((c :: rest).drop pattern.length) else after pattern rest

/-- `contains`. -/
def contains (text pattern : Bytes) : Bool := (after pattern text).isSome

/-- `ends_with`. -/
def endsWith (text suffix : Bytes) : Bool := suffix.isSuffixOf text

/-- A pattern is found where it occurs. -/
theorem contains_iff (text pattern : Bytes) : contains text pattern = true ↔ pattern <:+: text := by
  unfold contains
  induction text with
  | nil =>
    rw [after, List.infix_nil]
    by_cases hp : pattern = []
    · simp [hp]
    · simp [hp]
  | cons c rest ih =>
    rw [after, List.infix_cons_iff]
    by_cases hp : pattern.isPrefixOf (c :: rest) = true
    · rw [if_pos hp]
      exact ⟨fun _ => .inl (List.isPrefixOf_iff_prefix.mp hp), fun _ => rfl⟩
    · rw [if_neg hp, ih]
      exact ⟨.inr, fun h => h.resolve_left fun hpre => hp (List.isPrefixOf_iff_prefix.mpr hpre)⟩

/-- The fields of `SimConfig` about the UART. -/
structure UartConfig where
  uartCyclesPerBit : Nat := 2170
  uartCommand : Bytes := []
  uartFollowupCommands : List Bytes := []
  uartPrompt : Bytes := literal "msh >"
  deriving DecidableEq, Repr

/-- The fields of `SimConfig` that decide about the verdict. -/
structure SimConfig extends UartConfig where
  maxCycles : Nat := 200000
  benchmarkIterations : Nat := 0
  uartPromptTimeout : Nat := 5000000
  perfStartCode : BitVec 32 := 0
  perfStopCode : BitVec 32 := 0
  checker : Bytes := literal "test-status"
  uartExpect : List Bytes := []
  uartReject : List Bytes := []
  deriving DecidableEq, Repr

/-- `performance_enabled`. -/
def SimConfig.performanceEnabled (cfg : SimConfig) : Bool := cfg.perfStartCode != 0 && cfg.perfStopCode != 0

/-- `UartChecker`. -/
structure UartChecker where
  transcript : Bytes := []
  promptSeen : Bool := false
  promptCycle : Nat := 0
  promptCount : Nat := 0
  commandSent : Bool := false
  commandCycle : Nat := 0
  framingError : Bool := false
  deriving DecidableEq, Repr

/-- `UartCheckSnapshot`. -/
structure UartCheckSnapshot where
  name : Bytes
  passed : Bool
  message : Bytes
  promptSeen : Bool
  promptCycle : Nat
  promptCount : Nat
  commandSent : Bool
  commandCycle : Nat
  commandComplete : Bool
  framingError : Bool
  decodedBytes : Nat
  missing : List Bytes
  forbiddenSeen : List Bytes
  deriving DecidableEq, Repr

namespace UartChecker

variable (s : UartChecker)

/-- `observe`. -/
def observe (prompt : Bytes) (byte : BitVec 8) (cycle : Nat) : UartChecker :=
  let s := { s with transcript := s.transcript ++ [byte] }
  if !prompt.isEmpty && endsWith s.transcript prompt then
    { s with
      promptCount := s.promptCount + 1
      promptSeen := true
      promptCycle := if s.promptSeen then s.promptCycle else cycle }
  else s

/-- `mark_command_sent`. -/
def markCommandSent (cycle : Nat) : UartChecker := { s with commandSent := true, commandCycle := cycle }

/-- `mark_framing_error`. -/
def markFramingError : UartChecker := { s with framingError := true }

/-- `command_complete`. -/
def commandComplete (cfg : UartConfig) : Bool :=
  s.commandSent && decide (2 + cfg.uartFollowupCommands.length ≤ s.promptCount)

/-- `output_complete`. -/
def outputComplete (cfg : SimConfig) : Bool :=
  if !cfg.uartCommand.isEmpty && !s.commandComplete cfg.toUartConfig then false
  else cfg.uartExpect.all (contains s.transcript ·)

/-- `contains_number_after`. -/
def containsNumberAfter (pattern : Bytes) : Bool :=
  match after pattern s.transcript with
  | some (c :: _) => decide (0x30 ≤ c) && decide (c ≤ 0x39)
  | _ => false

/-- The strings `required` of the CoreMark output. -/
def coremarkRequired (cfg : SimConfig) : List Bytes :=
  [literal "Iterations       : " ++ literal (toString cfg.benchmarkIterations),
   literal "[0]crclist       : 0xe714",
   literal "[0]crcmatrix     : 0x1fd7",
   literal "[0]crcstate      : 0x8e3a"]

/-- The items `evaluate` misses, in its order. -/
def missing (cfg : SimConfig) (testPassed performanceComplete : Bool) : List Bytes :=
  (if testPassed then [] else [literal "passing Test Status"]) ++
  (if cfg.uartCommand.isEmpty then []
    else
      (if s.promptSeen then [] else [literal "UART prompt " ++ [0x60] ++ cfg.uartPrompt ++ [0x60]]) ++
      (if s.commandSent then [] else [literal "UART command transmission"]) ++
      (if s.commandComplete cfg.toUartConfig then []
        else [literal "final UART prompt after all command completions"])) ++
  cfg.uartExpect.filter (!contains s.transcript ·) ++
  (if contains cfg.checker (literal "coremark") then
      (coremarkRequired cfg).filter (!contains s.transcript ·) ++
      (if contains cfg.checker (literal "uart-command-coremark") then
        (if contains s.transcript (literal "SocRV CoreMark CRC check PASS") then []
          else [literal "SocRV CoreMark CRC check PASS"]) ++
        (if s.containsNumberAfter (literal "SocRV exact total ticks: ") then []
          else [literal "numeric SocRV exact total ticks"])
      else [])
    else []) ++
  (if contains cfg.checker (literal "perf-window") && !performanceComplete then
    [literal "complete performance window"] else [])

/-- The items `evaluate` forbids and has seen, in its order. -/
def forbiddenSeen (cfg : SimConfig) : List Bytes :=
  let checksUart := contains cfg.checker (literal "uart") || contains cfg.checker (literal "coremark")
  (if checksUart && s.framingError then [literal "UART framing error"] else []) ++
  (if checksUart && s.transcript.contains 0 then [literal "UART NUL byte"] else []) ++
  cfg.uartReject.filter (contains s.transcript ·)

/-- The items of a message. -/
def items (l : List Bytes) : Bytes := l.flatMap fun item => literal " [" ++ item ++ literal "]"

/-- The message of `evaluate`. -/
def message (missing forbidden : List Bytes) : Bytes :=
  if missing.isEmpty && forbidden.isEmpty then literal "all configured checks passed"
  else
    (if missing.isEmpty then [] else literal "missing:" ++ items missing) ++
    (if forbidden.isEmpty then []
      else (if missing.isEmpty then [] else literal "; ") ++ literal "forbidden:" ++ items forbidden)

/-- `evaluate`. -/
def evaluate (cfg : SimConfig) (testPassed performanceComplete : Bool) : UartCheckSnapshot where
  name := cfg.checker
  passed := (s.missing cfg testPassed performanceComplete).isEmpty && (s.forbiddenSeen cfg).isEmpty
  message := message (s.missing cfg testPassed performanceComplete) (s.forbiddenSeen cfg)
  promptSeen := s.promptSeen
  promptCycle := s.promptCycle
  promptCount := s.promptCount
  commandSent := s.commandSent
  commandCycle := s.commandCycle
  commandComplete := s.commandComplete cfg.toUartConfig
  framingError := s.framingError
  decodedBytes := s.transcript.length
  missing := s.missing cfg testPassed performanceComplete
  forbiddenSeen := s.forbiddenSeen cfg

/-- A passing evaluation has found every expected string and none that is rejected. -/
theorem evaluate_passed {cfg : SimConfig} {testPassed performanceComplete : Bool}
    (h : (s.evaluate cfg testPassed performanceComplete).passed = true) :
    (∀ e ∈ cfg.uartExpect, e <:+: s.transcript) ∧ ∀ r ∈ cfg.uartReject, ¬ r <:+: s.transcript := by
  obtain ⟨hmissing, hforbidden⟩ := Bool.and_eq_true_iff.mp h
  rw [List.isEmpty_iff] at hmissing hforbidden
  simp only [missing, List.append_eq_nil_iff, List.filter_eq_nil_iff, Bool.not_eq_true, Bool.not_eq_false'] at hmissing
  simp only [forbiddenSeen, List.append_eq_nil_iff, List.filter_eq_nil_iff] at hforbidden
  refine ⟨fun e he => (contains_iff _ _).mp ?_, fun r hr hin => ?_⟩
  · exact hmissing.1.1.2 e he
  · exact hforbidden.2 r hr ((contains_iff _ _).mpr hin)

end UartChecker

end SocRV
