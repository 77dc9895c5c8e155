import SocRV.Sim.UartDecoder

/-!
# The UART of the testbench in 64 bits

`UartStimulus` and `UartDecoder` compute with `uint64_t`.  As long as nothing overflows they do what their counterparts
on natural numbers do, and the decoder hears every frame on a line.
-/

namespace SocRV

/-! ## Sending -/

/-- `UartStimulus` with its 64-bit counters. -/
structure UartStimulus64 where
  bytes : Bytes
  startCycle : BitVec 64 := 0#64
  started : Bool := false
  deriving DecidableEq, Repr

namespace UartStimulus64

variable (cyclesPerBit : BitVec 64) (s : UartStimulus64)

/-- `start`. -/
def start (cycle : BitVec 64) : UartStimulus64 :=
  if s.started then s else { s with startCycle := cycle, started := true }

/-- `finished`. -/
def finished (cycle : BitVec 64) : Bool :=
  if !s.started || decide (cycle < s.startCycle) then false
  else
    let frameCycles := 10#64 * cyclesPerBit
    decide (BitVec.ofNat 64 s.bytes.length * frameCycles ≤ cycle - s.startCycle)

/-- `level`, unless it divides by zero. -/
def level (cycle : BitVec 64) : Option Bool :=
  if s.bytes.isEmpty || !s.started || decide (cycle < s.startCycle) then some true
  else
    let elapsed := cycle - s.startCycle
    let frameCycles := 10#64 * cyclesPerBit
    if frameCycles = 0#64 then none
    else
      let byteIndex := elapsed / frameCycles
      if s.bytes.length ≤ byteIndex.toNat then some true
      else
        let bit := elapsed % frameCycles / cyclesPerBit
        if bit = 0#64 then some false
        else if bit ≤ 8#64 then some ((s.bytes.getD byteIndex.toNat 0#8).getLsbD (bit.toNat - 1))
        else some true

/-- The stimulus with natural numbers. -/
def toNat : UartStimulus := { bytes := s.bytes, startCycle := s.startCycle.toNat, started := s.started }

variable {cyclesPerBit s}

/-- The guard of `finished` and `level` is that of their counterparts. -/
theorem decide_lt_start (cycle : BitVec 64) :
    decide (cycle < s.startCycle) = decide (cycle.toNat < s.toNat.startCycle) := decide_eq_decide.mpr BitVec.lt_def

/-- The length of a frame does not overflow when a transmission fits into the counters. -/
theorem toNat_frameCycles (h : 10 * cyclesPerBit.toNat ≤ 2 ^ 64) :
    (10#64 * cyclesPerBit).toNat = 10 * cyclesPerBit.toNat := by
  rw [BitVec.toNat_mul, BitVec.toNat_ofNat]
  omega

/-- From the start on no subtraction of cycles wraps. -/
theorem toNat_elapsed {cycle : BitVec 64} (h : s.startCycle.toNat ≤ cycle.toNat) :
    (cycle - s.startCycle).toNat = cycle.toNat - s.startCycle.toNat :=
  BitVec.toNat_sub_of_le (BitVec.le_def.mpr h)

/-- A transmission that fits into the counters drives the levels of its counterpart. -/
theorem level_eq (hC : 0 < cyclesPerBit.toNat)
    (hend : s.startCycle.toNat + serialTime cyclesPerBit.toNat s.bytes ≤ 2 ^ 64) (cycle : BitVec 64) :
    s.level cyclesPerBit cycle = some (s.toNat.level cyclesPerBit.toNat cycle.toNat) := by
  unfold level UartStimulus.level
  rw [decide_lt_start]
  by_cases hout : (s.bytes.isEmpty || !s.started || decide (cycle.toNat < s.toNat.startCycle)) = true
  · rw [if_pos hout]
    exact congrArg some (if_pos hout).symm
  · have hstart : s.startCycle.toNat ≤ cycle.toNat := by
      by_contra hlt
      apply hout
      rw [decide_eq_true (show cycle.toNat < s.toNat.startCycle from Nat.lt_of_not_le hlt), Bool.or_true]
    have hlength : 0 < s.bytes.length := by
      rw [List.length_pos_iff]
      intro hnil
      apply hout
      rw [hnil]
      rfl
    have hframe : (10#64 * cyclesPerBit).toNat = 10 * cyclesPerBit.toNat := by
      apply toNat_frameCycles
      have hone := Nat.mul_le_mul_right (10 * cyclesPerBit.toNat) hlength
      unfold serialTime at hend
      omega
    have hne : 10#64 * cyclesPerBit ≠ 0#64 := by
      intro hzero
      rw [hzero, BitVec.toNat_ofNat] at hframe
      omega
    have hindex : ((cycle - s.startCycle) / (10#64 * cyclesPerBit)).toNat =
        (cycle.toNat - s.startCycle.toNat) / (10 * cyclesPerBit.toNat) := by
      rw [BitVec.toNat_udiv, toNat_elapsed hstart, hframe]
    have hbit : ((cycle - s.startCycle) % (10#64 * cyclesPerBit) / cyclesPerBit).toNat =
        (cycle.toNat - s.startCycle.toNat) % (10 * cyclesPerBit.toNat) / cyclesPerBit.toNat := by
      rw [BitVec.toNat_udiv, BitVec.toNat_umod, toNat_elapsed hstart, hframe]
    rw [if_neg hout, if_neg hne]
    dsimp only
    simp only [BitVec.le_def, ← BitVec.toNat_inj, hindex, hbit]
    refine Eq.trans ?_ (congrArg some (if_neg hout).symm)
    simp only [apply_ite some]
    rfl

end UartStimulus64

/-! ## Receiving -/

/-- `UartDecoder` with its 64-bit counter. -/
structure UartDecoder64 where
  receiving : Bool := false
  framingError : Bool := false
  countdown : BitVec 64 := 0#64
  bitIndex : Nat := 0
  byte : BitVec 8 := 0#8
  deriving DecidableEq, Repr

namespace UartDecoder64

/-- `sample`: the decoder after a cycle, and the byte it has decoded in it. -/
def sample (cyclesPerBit : BitVec 64) (s : UartDecoder64) (tx : Bool) : UartDecoder64 × Option (BitVec 8) :=
  if !s.receiving then
    if !tx then
      ({ s with
          receiving := true
          countdown := cyclesPerBit + cyclesPerBit / 2#64 - 1#64
          bitIndex := 0
          byte := 0#8 }, none)
    else (s, none)
  else if 0 < s.countdown.toNat then ({ s with countdown := s.countdown - 1#64 }, none)
  else if s.bitIndex < 8 then
    ({ s with
        byte := if tx then s.byte ||| BitVec.ofNat 8 (1 <<< s.bitIndex) else s.byte
        bitIndex := s.bitIndex + 1
        countdown := cyclesPerBit - 1#64 }, none)
  else if tx then ({ s with receiving := false }, some s.byte)
  else ({ s with receiving := false, framingError := true }, none)

/-- The decoder with a natural number. -/
def toNat (s : UartDecoder64) : UartDecoder :=
  { receiving := s.receiving, framingError := s.framingError, countdown := s.countdown.toNat,
    bitIndex := s.bitIndex, byte := s.byte }

/-- The counters do not overflow at this bit time. -/
structure Times (cyclesPerBit : BitVec 64) : Prop where
  pos : 0 < cyclesPerBit.toNat
  half : cyclesPerBit.toNat + cyclesPerBit.toNat / 2 ≤ 2 ^ 64

/-- One less than a positive cycle does not wrap. -/
theorem toNat_sub_one {c : BitVec 64} (hc : 0 < c.toNat) : (c - 1#64).toNat = c.toNat - 1 :=
  BitVec.toNat_sub_of_le (BitVec.le_def.mpr hc)

/-- The middle of the first bit does not wrap. -/
theorem Times.first {C : BitVec 64} (h : Times C) : (C + C / 2#64 - 1#64).toNat = C.toNat + C.toNat / 2 - 1 := by
  have hpos := h.pos
  have hhalf := h.half
  have hone : (1#64).toNat = 1 := rfl
  have htwo : (2#64).toNat = 2 := rfl
  rw [BitVec.toNat_sub, BitVec.toNat_add, BitVec.toNat_udiv, hone, htwo]
  omega

/-- As long as the counter does not overflow, the decoder does what its counterpart does. -/
theorem sample_toNat {C : BitVec 64} (h : Times C) (s : UartDecoder64) (tx : Bool) :
    s.toNat.sample C.toNat tx = ((s.sample C tx).1.toNat, (s.sample C tx).2) := by
  obtain ⟨receiving, framingError, countdown, bitIndex, byte⟩ := s
  unfold UartDecoder.sample sample toNat
  dsimp only
  cases receiving with
  | false =>
    cases tx with
    | false =>
      simp only [Bool.not_false, if_true, h.first]
      rfl
    | true => rfl
  | true =>
    by_cases hcount : 0 < countdown.toNat
    · simp only [Bool.not_true, Bool.false_eq_true, if_false, if_pos hcount, toNat_sub_one hcount]
    · by_cases hindex : bitIndex < 8
      · simp only [Bool.not_true, Bool.false_eq_true, if_false, if_neg hcount, if_pos hindex, toNat_sub_one h.pos]
        rfl
      · cases tx <;> simp only [Bool.not_true, Bool.false_eq_true, if_false, if_true, if_neg hcount, if_neg hindex]

/-- The decoder as it samples a line. -/
def machine (C : BitVec 64) : Machine UartDecoder64 Bool := ⟨{}, fun s tx => (s.sample C tx).1⟩

/-- The byte decoded in a cycle. -/
def decoded (C : BitVec 64) (s : UartDecoder64) (tx : Bool) : Bytes := (s.sample C tx).2.toList

/-- On any line, the decoder goes through the states of its counterpart. -/
theorem run_toNat {C : BitVec 64} (h : Times C) (f : Nat → Bool) (n : Nat) :
    ((machine C).run f n).toNat = (UartDecoder.machine C.toNat).run f n := by
  induction n with
  | zero => rfl
  | succ n ih =>
    rw [Machine.run_succ, Machine.run_succ, ← ih]
    exact (congrArg Prod.fst (sample_toNat h ((machine C).run f n) (f n))).symm

/-- With times that do not wrap both decoders report the same bytes. -/
theorem events_toNat {C : BitVec 64} (h : Times C) (f : Nat → Bool) (n : Nat) :
    (machine C).events (decoded C) f n = (UartDecoder.machine C.toNat).events (UartDecoder.decoded C.toNat) f n := by
  induction n with
  | zero => rfl
  | succ n ih =>
    rw [Machine.events, Machine.events, ih, ← run_toNat h]
    unfold decoded UartDecoder.decoded
    rw [sample_toNat h]

end UartDecoder64

/-! ## The decoder behind the stimulus -/

namespace UartCodec

/-- The levels of the stimulus in `n` successive cycles are sampled by a fresh decoder: the decoder behind them, and the
bytes it has decoded. -/
def feed (cyclesPerBit : BitVec 64) (stimulus : UartStimulus64) (first : BitVec 64) : Nat → Option (UartDecoder64 × Bytes)
  | 0 => some ({}, [])
  | n + 1 => (feed cyclesPerBit stimulus first n).bind fun r =>
      (stimulus.level cyclesPerBit (first + BitVec.ofNat 64 n)).map fun tx =>
        ((r.1.sample cyclesPerBit tx).1, r.2 ++ (r.1.sample cyclesPerBit tx).2.toList)

/-- Where no division fails, the decoder samples the levels. -/
theorem feed_eq {C first : BitVec 64} {s : UartStimulus64} {f : Nat → Bool} {n : Nat}
    (h : ∀ k < n, s.level C (first + BitVec.ofNat 64 k) = some (f k)) : feed C s first n =
      some ((UartDecoder64.machine C).run f n, (UartDecoder64.machine C).events (UartDecoder64.decoded C) f n) := by
  induction n with
  | zero => rfl
  | succ n ih =>
    rw [feed, ih fun k hk => h k (Nat.lt_succ_of_lt hk), h n (Nat.lt_succ_self n)]
    rfl

end UartCodec

end SocRV
