import SocRV.Lib.Serial

/-!
# The UART of the testbench

`UartStimulus` shifts a command out on `uart_rx`; `UartDecoder` turns the level of `uart_tx` into bytes.  Cycle numbers
and lengths are natural numbers.
-/

namespace SocRV

/-- A C++ string. -/
abbrev Bytes := List (BitVec 8)

/-! ## Sending -/

/-- `UartStimulus`, with its constant `cycles_per_bit_` as an argument of its functions. -/
structure UartStimulus where
  bytes : Bytes
  startCycle : Nat := 0
  started : Bool := false
  deriving DecidableEq, Repr

namespace UartStimulus

variable (cyclesPerBit : Nat) (s : UartStimulus)

/-- `start`. -/
def start (cycle : Nat) : UartStimulus := if s.started then s else { s with startCycle := cycle, started := true }

/-- `load`. -/
def load (_s : UartStimulus) (command : Bytes) : UartStimulus := { bytes := command }

/-- `finished`. -/
def finished (cycle : Nat) : Bool :=
  if !s.started || decide (cycle < s.startCycle) then false
  else decide (s.bytes.length * (10 * cyclesPerBit) ≤ cycle - s.startCycle)

/-- `level`. -/
def level (cycle : Nat) : Bool :=
  if s.bytes.isEmpty || !s.started || decide (cycle < s.startCycle) then true
  else
    let elapsed := cycle - s.startCycle
    let frameCycles := 10 * cyclesPerBit
    let byteIndex := elapsed / frameCycles
    if s.bytes.length ≤ byteIndex then true
    else
      let bit := elapsed % frameCycles / cyclesPerBit
      if bit = 0 then false
      else if bit ≤ 8 then (s.bytes.getD byteIndex 0).getLsbD (bit - 1)
      else true

/-- A command in transmission drives its frames, in order. -/
theorem level_eq_wave (hs : s.started = true) {c : Nat} (hc : c < serialTime cyclesPerBit s.bytes) :
    s.level cyclesPerBit (s.startCycle + c) = serialWave cyclesPerBit s.bytes c := by
  have hpos : 0 < cyclesPerBit := by
    rcases Nat.eq_zero_or_pos cyclesPerBit with h | h
    · simp [h, serialTime] at hc
    · exact h
  have hne : s.bytes.isEmpty = false := by
    cases hb : s.bytes with
    | nil =>
      rw [hb, serialTime, List.length_nil, Nat.zero_mul] at hc
      exact absurd hc (Nat.not_lt_zero c)
    | cons b bs => rfl
  have hindex : c / (10 * cyclesPerBit) < s.bytes.length :=
    Nat.div_lt_of_lt_mul (by rw [Nat.mul_comm]; exact hc)
  have hbit : c % (10 * cyclesPerBit) / cyclesPerBit < 10 :=
    Nat.div_lt_of_lt_mul (by rw [Nat.mul_comm]; exact Nat.mod_lt _ (by omega))
  have hsplit : c / cyclesPerBit = 10 * (c / (10 * cyclesPerBit)) + c % (10 * cyclesPerBit) / cyclesPerBit := by
    rw [Nat.mul_comm 10 cyclesPerBit, Nat.mod_mul_right_div_self, ← Nat.div_div_eq_div_mul]
    exact (Nat.div_add_mod _ _).symm
  have hcond : (s.bytes.isEmpty || !s.started || decide (s.startCycle + c < s.startCycle)) = false := by
    rw [hne, hs, decide_eq_false (by omega)]
    rfl
  unfold level serialWave
  dsimp only
  rw [hcond, if_neg Bool.false_ne_true, Nat.add_sub_cancel_left, if_neg (Nat.not_le_of_lt hindex), hsplit,
    serialFrames_getD _ hindex hbit, serialFrame_getD _ hbit]

end UartStimulus

/-! ## Receiving -/

/-- `UartDecoder`, with its constant `cycles_per_bit_` as an argument of its functions. -/
structure UartDecoder where
  receiving : Bool := false
  framingError : Bool := false
  countdown : Nat := 0
  bitIndex : Nat := 0
  byte : BitVec 8 := 0
  deriving DecidableEq, Repr

/-- `sample`: the decoder after a cycle, and the byte it has decoded in it. -/
def UartDecoder.sample (cyclesPerBit : Nat) (s : UartDecoder) (tx : Bool) : UartDecoder × Option (BitVec 8) :=
  if !s.receiving then
    if !tx then
      ({ s with receiving := true, countdown := cyclesPerBit + cyclesPerBit / 2 - 1, bitIndex := 0, byte := 0 }, none)
    else (s, none)
  else if 0 < s.countdown then ({ s with countdown := s.countdown - 1 }, none)
  else if s.bitIndex < 8 then
    ({ s with
        byte := if tx then s.byte ||| 1 <<< s.bitIndex else s.byte
        bitIndex := s.bitIndex + 1
        countdown := cyclesPerBit - 1 }, none)
  else if tx then ({ s with receiving := false }, some s.byte)
  else ({ s with receiving := false, framingError := true }, none)

end SocRV
