import SocRV.Sim.UartCodec
import SocRV.Theorems.UartTransmit

/-!
# The round trip through the testbench

The decoder gets back what the stimulus sends, and what the transmitter sends when its line is sampled several times a
cycle.  The counters of both have 64 bits: a command that is sent beyond the last cycle number does not arrive.
-/

namespace SocRV

/-! ## The stimulus -/

namespace UartStimulus

variable {C first : Nat} {s : UartStimulus}

/-- Before the start the line is high. -/
theorem level_before {cycle : Nat} (h : cycle < s.startCycle) : s.level C cycle = true := by
  unfold level
  rw [decide_eq_true h, Bool.or_true]
  rfl

/-- Behind the last frame the line is high. -/
theorem level_behind (hC : 0 < C) {cycle : Nat} (h : s.startCycle + serialTime C s.bytes ≤ cycle) :
    s.level C cycle = true := by
  have hindex : s.bytes.length ≤ (cycle - s.startCycle) / (10 * C) := by
    rw [Nat.le_div_iff_mul_le (by omega)]
    exact Nat.le_sub_of_add_le' h
  unfold level
  split
  · rfl
  · exact if_pos hindex

/-- Frame `i` of a command. -/
theorem level_frame (hC : 0 < C) (hs : s.started = true) {i c : Nat} (hi : i < s.bytes.length) (hc : c < 10 * C) :
    s.level C (s.startCycle + (i * (10 * C) + c)) = (serialFrame (s.bytes.getD i 0)).getD (c / C) true := by
  have htime : i * (10 * C) + c < serialTime C s.bytes := by
    have hle := Nat.mul_le_mul_right (10 * C) hi
    rw [Nat.succ_mul] at hle
    unfold serialTime
    omega
  have hdiv : (i * (10 * C) + c) / C = 10 * i + c / C := by
    rw [← Nat.mul_assoc, Nat.mul_comm i 10, Nat.mul_comm (10 * i) C, Nat.mul_add_div hC]
  rw [level_eq_wave C s hs htime]
  unfold serialWave
  rw [hdiv]
  exact serialFrames_getD s.bytes hi (Nat.div_lt_of_lt_mul (by rwa [Nat.mul_comm]))

/-- The line of the stimulus carries the first bytes of the command. -/
theorem carries (hC : 0 < C) (hs : s.started = true) (hfirst : first ≤ s.startCycle) {i : Nat}
    (hi : i ≤ s.bytes.length) :
    SerialCarries C (fun k => s.level C (first + k)) (s.bytes.take i) (s.startCycle - first + i * (10 * C)) := by
  induction i with
  | zero =>
    have hgap : SerialCarries C (fun k => s.level C (first + k)) [] (0 + (s.startCycle - first)) :=
      SerialCarries.start.gap fun k hk => level_before (by omega)
    rw [Nat.zero_add] at hgap
    rw [Nat.zero_mul]
    exact hgap
  | succ i ih =>
    have hframe := (ih (Nat.le_of_succ_le hi)).frame (b := s.bytes.getD i 0) fun c hc => by
      have hsum : first + (s.startCycle - first + i * (10 * C) + c) = s.startCycle + (i * (10 * C) + c) := by omega
      rw [hsum]
      exact level_frame hC hs hi hc
    have hget : s.bytes.getD i 0 = s.bytes[i] := by
      rw [List.getD_eq_getElem?_getD, List.getElem?_eq_getElem hi]
      rfl
    rw [hget, List.take_append_getElem hi] at hframe
    rw [Nat.succ_mul, ← Nat.add_assoc]
    exact hframe

/-- The decoder hears the command, all of it once it has been sent. -/
theorem heard (hC : 0 < C) (hs : s.started = true) (hfirst : first ≤ s.startCycle) (n : Nat) :
    UartDecoder.Heard C (fun k => s.level C (first + k)) n s.bytes ∧
      (s.startCycle + serialTime C s.bytes ≤ first + n →
        (UartDecoder.machine C).events (UartDecoder.decoded C) (fun k => s.level C (first + k)) n = s.bytes) := by
  by_cases hbefore : n < s.startCycle - first
  · have hcarries : SerialCarries C (fun k => s.level C (first + k)) [] (0 + n) :=
      SerialCarries.start.gap fun k hk => level_before (by omega)
    rw [Nat.zero_add] at hcarries
    exact ⟨UartDecoder.heard_of_carries hC hcarries List.nil_prefix, fun hle => by omega⟩
  · obtain ⟨m, rfl⟩ := Nat.exists_eq_add_of_le (Nat.le_of_not_lt hbefore)
    by_cases hbehind : serialTime C s.bytes ≤ m
    · obtain ⟨k, rfl⟩ := Nat.exists_eq_add_of_le hbehind
      have hcarries := (carries hC hs hfirst (Nat.le_refl s.bytes.length)).gap (k := k) fun i hi =>
        level_behind hC (by unfold serialTime; omega)
      rw [List.take_length, Nat.add_assoc] at hcarries
      exact ⟨UartDecoder.heard_of_carries hC hcarries (List.prefix_refl _),
        fun _ => (UartDecoder.run_carries hC hcarries).2⟩
    · have hi : m / (10 * C) < s.bytes.length := Nat.div_lt_of_lt_mul (by
        rw [Nat.mul_comm]
        exact Nat.lt_of_not_le hbehind)
      have hsplit : s.startCycle - first + m = s.startCycle - first + m / (10 * C) * (10 * C) + m % (10 * C) := by
        rw [Nat.add_assoc, Nat.div_add_mod']
      have htake : s.bytes.take (m / (10 * C)) ++ [s.bytes.getD (m / (10 * C)) 0] <+: s.bytes := by
        rw [List.getD_eq_getElem?_getD, List.getElem?_eq_getElem hi]
        show s.bytes.take (m / (10 * C)) ++ [s.bytes[m / (10 * C)]] <+: s.bytes
        rw [List.take_append_getElem hi]
        exact List.take_prefix _ _
      rw [hsplit]
      refine ⟨UartDecoder.heard_within hC (carries hC hs hfirst (Nat.le_of_lt hi)) (fun c hc => ?_)
        (Nat.le_of_lt (Nat.mod_lt _ (by omega))) htake, fun hle => ?_⟩
      · have hsum : first + (s.startCycle - first + m / (10 * C) * (10 * C) + c) =
            s.startCycle + (m / (10 * C) * (10 * C) + c) := by omega
        rw [hsum]
        exact level_frame hC hs hi hc
      · rw [← hsplit] at hle
        omega

end UartStimulus

/-! ## The transmitter -/

namespace Uart

variable {clockHz baud : Nat} {D : BitVec 32} {w : Nat → UartIn} {n₀ r : Nat}

/-- The line of the transmitter from cycle `n₀` on, sampled `r` times in each cycle. -/
def sampled (clockHz baud : Nat) (w : Nat → UartIn) (n₀ r k : Nat) : Bool :=
  ((machine clockHz baud).run w (n₀ + k / r)).uartTx

theorem sampled_of_lt {m k : Nat} (hk : k < r) :
    sampled clockHz baud w n₀ r (m * r + k) = ((machine clockHz baud).run w (n₀ + m)).uartTx := by
  have hdiv : (m * r + k) / r = m := by
    rw [Nat.mul_comm, Nat.mul_add_div (by omega), Nat.div_eq_of_lt hk, Nat.add_zero]
  unfold sampled
  rw [hdiv]

/-- The samples of a frame. -/
theorem Paced.sampled_frame (h : Paced clockHz baud D w n₀) (hD : 0 < D.toNat) (hr : 0 < r) {m : Nat} {b : BitVec 8}
    (hb : taken ((machine clockHz baud).run w (n₀ + m)) = [b]) {c : Nat} (hc : c < 10 * (D.toNat * r)) :
    sampled clockHz baud w n₀ r (m * r + r + c) = (serialFrame b).getD (c / (D.toNat * r)) true := by
  have hdiv : (m * r + r + c) / r = m + 1 + c / r := by
    rw [← Nat.succ_mul, Nat.mul_comm, Nat.mul_add_div hr]
  have hcycle : c / r < 10 * D.toNat := Nat.div_lt_of_lt_mul (by rwa [Nat.mul_comm, Nat.mul_assoc])
  have hbit : c / (D.toNat * r) < 10 := Nat.div_lt_of_lt_mul (by rwa [Nat.mul_comm])
  unfold sampled
  rw [hdiv, ← Nat.add_assoc, ← Nat.add_assoc, (h.frame hD (Nat.le_add_right n₀ m) hb hcycle).tx, Nat.div_div_eq_div_mul,
    Nat.mul_comm r]
  rfl

/-- No byte is taken while a frame is on the line. -/
theorem Paced.begun_frame (h : Paced clockHz baud D w n₀) (hD : 0 < D.toNat) {n : Nat} (hn : n₀ ≤ n) {b : BitVec 8}
    (hb : taken ((machine clockHz baud).run w n) = [b]) {c : Nat} (hc : c ≤ 10 * D.toNat) :
    begun clockHz baud w (n + 1 + c) = begun clockHz baud w n ++ [b] := by
  induction c with
  | zero =>
    unfold begun
    rw [Nat.add_zero, Machine.events, hb]
  | succ c ih =>
    have hnone := taken_none (h.frame hD hn hb hc).txPop
    have hbegun := ih (Nat.le_of_succ_le hc)
    unfold begun at hbegun ⊢
    rw [← Nat.add_assoc, Machine.events, hbegun, hnone, List.append_nil]

/-- When a byte is taken, the line has been free. -/
theorem free_of_pop {s : Uart} (h : s.txPop = true) : s.txBitsLeft.toNat = 0 := by
  unfold txPop at h
  rw [toNat_beq_zero, Bool.and_eq_true, Bool.and_eq_true, decide_eq_true_eq] at h
  exact h.1.2

/-- Whenever the line is free, it has carried the bytes whose frames have begun. -/
theorem Paced.carries (h : Paced clockHz baud D w n₀) (hD : 0 < D.toNat) (hr : 0 < r) (m : Nat)
    (hfree : ((machine clockHz baud).run w (n₀ + m)).txBitsLeft.toNat = 0) :
    ∃ bs, begun clockHz baud w (n₀ + m) = begun clockHz baud w n₀ ++ bs ∧
      SerialCarries (D.toNat * r) (sampled clockHz baud w n₀ r) bs (m * r) := by
  induction m using Nat.strong_induction_on with
  | _ m ih =>
    cases m with
    | zero =>
      rw [Nat.zero_mul]
      exact ⟨[], (List.append_nil _).symm, .start⟩
    | succ m =>
      have hgap : ∀ {k bs}, ((machine clockHz baud).run w (n₀ + k)).txBitsLeft.toNat = 0 →
          SerialCarries (D.toNat * r) (sampled clockHz baud w n₀ r) bs (k * r) →
          SerialCarries (D.toNat * r) (sampled clockHz baud w n₀ r) bs (k * r + r) := by
        intro k bs hk hcarries
        refine hcarries.gap fun i hi => ?_
        rw [sampled_of_lt hi]
        exact tx_of_free hk
      have hfirst : ∀ {n}, n₀ ≤ n → ((machine clockHz baud).run w n).txPop = true →
          ∀ {c}, c < 10 * D.toNat → ((machine clockHz baud).run w (n + 1 + c)).txBitsLeft.toNat ≠ 0 := by
        intro n hn hpop c hc
        exact (h.frame hD hn (taken_some hpop) hc).left_ne
      by_cases hbusy : ((machine clockHz baud).run w (n₀ + m)).txBitsLeft.toNat = 0
      · obtain ⟨bs, hbegun, hcarries⟩ := ih m (Nat.lt_succ_self m) hbusy
        have hpop : ((machine clockHz baud).run w (n₀ + m)).txPop = false := by
          rw [← Bool.not_eq_true]
          intro hpop
          exact hfirst (Nat.le_add_right n₀ m) hpop (c := 0) (by omega) hfree
        refine ⟨bs, ?_, ?_⟩
        · unfold begun at hbegun ⊢
          rw [← Nat.add_assoc, Machine.events, hbegun, taken_none hpop, List.append_nil]
        · rw [Nat.succ_mul]
          exact hgap hbusy hcarries
      · obtain ⟨n, hn, hlt, hle, hpop⟩ := h.within hD (Nat.le_add_right n₀ m) hbusy
        obtain ⟨j, rfl⟩ := Nat.exists_eq_add_of_le hn
        have hend : m = j + 10 * D.toNat := by
          by_contra hne
          obtain ⟨c, hc⟩ := Nat.exists_eq_add_of_le (show j + 1 ≤ m + 1 by omega)
          have hstill := hfirst hn hpop (c := c) (by omega)
          have hcycle : n₀ + j + 1 + c = n₀ + (m + 1) := by omega
          rw [hcycle] at hstill
          exact hstill hfree
        obtain ⟨b, hb⟩ : ∃ b, taken ((machine clockHz baud).run w (n₀ + j)) = [b] := ⟨_, taken_some hpop⟩
        obtain ⟨bs, hbegun, hcarries⟩ := ih j (by omega) (free_of_pop hpop)
        have hframe := (hgap (free_of_pop hpop) hcarries).frame fun c hc => h.sampled_frame hD hr hb hc
        have hcycle : n₀ + (m + 1) = n₀ + j + 1 + 10 * D.toNat := by omega
        refine ⟨bs ++ [b], ?_, ?_⟩
        · rw [hcycle, h.begun_frame hD hn hb (Nat.le_refl _), hbegun, List.append_assoc]
        · have hsum : (m + 1) * r = j * r + r + 10 * (D.toNat * r) := by
            rw [hend, Nat.succ_mul, Nat.add_mul, Nat.mul_assoc]
            omega
          rw [hsum]
          exact hframe

/-- The decoder hears the bytes whose frames have begun, all of them when the line is free. -/
theorem Paced.heard (h : Paced clockHz baud D w n₀) (hD : 0 < D.toNat) (hr : 0 < r) (k : Nat) :
    ∃ bs, begun clockHz baud w (n₀ + k / r) = begun clockHz baud w n₀ ++ bs ∧
      UartDecoder.Heard (D.toNat * r) (sampled clockHz baud w n₀ r) k bs := by
  have hC : 0 < D.toNat * r := Nat.mul_pos hD hr
  by_cases hfree : ((machine clockHz baud).run w (n₀ + k / r)).txBitsLeft.toNat = 0
  · obtain ⟨bs, hbegun, hcarries⟩ := h.carries hD hr (k / r) hfree
    refine ⟨bs, hbegun, ?_⟩
    rw [← Nat.div_add_mod' k r]
    refine UartDecoder.heard_of_carries hC (hcarries.gap fun i hi => ?_) (List.prefix_refl bs)
    rw [sampled_of_lt (Nat.lt_trans hi (Nat.mod_lt k hr))]
    exact tx_of_free hfree
  · obtain ⟨n, hn, hlt, hle, hpop⟩ := h.within hD (Nat.le_add_right _ _) hfree
    obtain ⟨j, rfl⟩ := Nat.exists_eq_add_of_le hn
    obtain ⟨b, hb⟩ : ∃ b, taken ((machine clockHz baud).run w (n₀ + j)) = [b] := ⟨_, taken_some hpop⟩
    obtain ⟨bs, hbegun, hcarries⟩ := h.carries hD hr j (free_of_pop hpop)
    obtain ⟨c, hc⟩ := Nat.exists_eq_add_of_le (show n₀ + j + 1 ≤ n₀ + k / r by omega)
    have hgap := hcarries.gap fun i hi => by
      rw [sampled_of_lt hi]
      exact tx_of_free (free_of_pop hpop)
    obtain ⟨e, he⟩ := Nat.exists_eq_add_of_le (show j * r + r ≤ k by
      rw [← Nat.succ_mul]
      exact (Nat.le_div_iff_mul_le hr).mp (by omega))
    have hele : e ≤ 10 * (D.toNat * r) := by
      have hlt : k < (j + 1 + 10 * D.toNat) * r := (Nat.div_lt_iff_lt_mul hr).mp (by omega)
      rw [Nat.add_mul, Nat.succ_mul, Nat.mul_assoc] at hlt
      omega
    refine ⟨bs ++ [b], ?_, ?_⟩
    · rw [hc, h.begun_frame hD hn hb (by omega), hbegun, List.append_assoc]
    · rw [he]
      exact UartDecoder.heard_within hC hgap (fun c hc => h.sampled_frame hD hr hb hc) hele (List.prefix_refl _)

end Uart

/-! ## Round trips -/

namespace UartCodec

/-- A command is sent from cycle `start` on, and a fresh decoder samples its line in successive cycles, the first of
which is not behind `start`. -/
structure RoundTrips (C : BitVec 64) (command : Bytes) (start : BitVec 64) : Prop where
  /-- Nothing but the bytes of the command is decoded, in order, and no framing error is seen. -/
  order : ∀ (first : BitVec 64) n, first.toNat ≤ start.toNat → first.toNat + n ≤ 2 ^ 64 →
    ∃ s out, feed C (UartStimulus64.start { bytes := command } start) first n = some (s, out) ∧
      s.framingError = false ∧ out <+: command
  /-- All of them are decoded when the last stop bit has been sent. -/
  complete : ∀ (first : BitVec 64) n, first.toNat ≤ start.toNat → first.toNat + n ≤ 2 ^ 64 →
    start.toNat + serialTime C.toNat command ≤ first.toNat + n →
    ∃ s, feed C (UartStimulus64.start { bytes := command } start) first n = some (s, command)

/-- What a fresh decoder hears of the transmitter in the run on `w`, from cycle `n₀` on and with `r` samples a cycle. -/
structure Recovers (clockHz baud : Nat) (D : BitVec 32) (w : Nat → UartIn) (n₀ r : Nat) : Prop where
  /-- The frames begin a cycle more than a frame apart, or further. -/
  spaced : ∀ n ≥ n₀, ∀ m > n, Uart.taken ((Uart.machine clockHz baud).run w n) ≠ [] →
    Uart.taken ((Uart.machine clockHz baud).run w m) ≠ [] → n + (10 * D.toNat + 1) ≤ m
  /-- Nothing but the bytes whose frames have begun is decoded, in order, and no framing error is seen. -/
  order : ∀ k,
    ((UartDecoder64.machine (BitVec.ofNat 64 (D.toNat * r))).run (Uart.sampled clockHz baud w n₀ r) k).framingError =
      false ∧
    Uart.begun clockHz baud w n₀ ++ (UartDecoder64.machine (BitVec.ofNat 64 (D.toNat * r))).events
      (UartDecoder64.decoded (BitVec.ofNat 64 (D.toNat * r))) (Uart.sampled clockHz baud w n₀ r) k <+:
        Uart.begun clockHz baud w (n₀ + k / r)
  /-- All of them are decoded whenever the line is free. -/
  complete : ∀ m, ((Uart.machine clockHz baud).run w (n₀ + m)).txBitsLeft.toNat = 0 →
    Uart.begun clockHz baud w n₀ ++ (UartDecoder64.machine (BitVec.ofNat 64 (D.toNat * r))).events
      (UartDecoder64.decoded (BitVec.ofNat 64 (D.toNat * r))) (Uart.sampled clockHz baud w n₀ r) (m * r) =
        Uart.begun clockHz baud w (n₀ + m)
  /-- All bytes that were accepted are decoded whenever the transmitter is idle. -/
  idle : ∀ m, ((Uart.machine clockHz baud).run w (n₀ + m)).txIdle = true →
    Uart.begun clockHz baud w n₀ ++ (UartDecoder64.machine (BitVec.ofNat 64 (D.toNat * r))).events
      (UartDecoder64.decoded (BitVec.ofNat 64 (D.toNat * r))) (Uart.sampled clockHz baud w n₀ r) (m * r) =
        Uart.written clockHz baud w (n₀ + m)

/-- The cycle numbers of a feed that fits into the counter. -/
theorem toNat_cycle {first : BitVec 64} {n k : Nat} (h : first.toNat + n ≤ 2 ^ 64) (hk : k < n) :
    (first + BitVec.ofNat 64 k).toNat = first.toNat + k := by
  rw [BitVec.toNat_add, BitVec.toNat_ofNat]
  omega

/-- On a line that stays high, a fresh decoder does nothing. -/
theorem run_high (C : BitVec 64) (n : Nat) : (UartDecoder64.machine C).run (fun _ => true) n = {} ∧
    (UartDecoder64.machine C).events (UartDecoder64.decoded C) (fun _ => true) n = [] := by
  induction n with
  | zero => exact ⟨rfl, rfl⟩
  | succ n ih =>
    rw [Machine.run_succ, Machine.events, ih.1, ih.2]
    exact ⟨rfl, rfl⟩

/-- A command that is sent within the cycle numbers makes the round trip. -/
theorem roundTrips {C start : BitVec 64} {command : Bytes} (hC : 0 < C.toNat)
    (hend : start.toNat + serialTime C.toNat command ≤ 2 ^ 64) : RoundTrips C command start := by
  by_cases hnil : command = []
  · have hfeed : ∀ (first : BitVec 64) n, feed C (UartStimulus64.start { bytes := command } start) first n =
        some ({}, []) := by
      intro first n
      have hlevel : ∀ k < n, (UartStimulus64.start { bytes := command } start).level C (first + BitVec.ofNat 64 k) =
          some ((fun _ => true) k) := by
        intro k _
        rw [hnil]
        rfl
      rw [feed_eq hlevel, (run_high C n).1, (run_high C n).2]
    refine ⟨fun first n _ _ => ⟨_, _, hfeed first n, rfl, List.nil_prefix⟩, fun first n _ _ _ => ⟨{}, ?_⟩⟩
    rw [hfeed first n, hnil]
  · have htimes : UartDecoder64.Times C := by
      refine ⟨hC, ?_⟩
      have hone := Nat.mul_le_mul_right (10 * C.toNat) (List.length_pos_iff.mpr hnil)
      unfold serialTime at hend
      omega
    have hfeed : ∀ (first : BitVec 64) n, first.toNat + n ≤ 2 ^ 64 →
        feed C (UartStimulus64.start { bytes := command } start) first n =
          some ((UartDecoder64.machine C).run (fun k =>
              (UartStimulus64.start { bytes := command } start).toNat.level C.toNat (first.toNat + k)) n,
            (UartDecoder.machine C.toNat).events (UartDecoder.decoded C.toNat) (fun k =>
              (UartStimulus64.start { bytes := command } start).toNat.level C.toNat (first.toNat + k)) n) := by
      intro first n hn
      rw [← UartDecoder64.events_toNat htimes]
      refine feed_eq fun k hk => ?_
      rw [UartStimulus64.level_eq hC hend, toNat_cycle hn hk]
    refine ⟨fun first n hfirst hn => ?_, fun first n hfirst hn hle => ?_⟩
    · have hheard := (UartStimulus.heard (s := (UartStimulus64.start { bytes := command } start).toNat) hC rfl hfirst n).1
      refine ⟨_, _, hfeed first n hn, ?_, hheard.order⟩
      have hframing := hheard.framingError
      rw [← UartDecoder64.run_toNat htimes] at hframing
      exact hframing
    · have hheard := (UartStimulus.heard (s := (UartStimulus64.start { bytes := command } start).toNat) hC rfl hfirst n).2
      rw [hfeed first n hn, hheard hle]
      exact ⟨_, rfl⟩

/-- Every sequence of bytes that is sent at the divisor `D` is recovered. -/
theorem recovers {clockHz baud : Nat} {D : BitVec 32} {w : Nat → UartIn} {n₀ r : Nat} (hD : 0 < D.toNat) (hr : 0 < r)
    (h : Uart.Paced clockHz baud D w n₀) (hhalf : D.toNat * r + D.toNat * r / 2 ≤ 2 ^ 64) :
    Recovers clockHz baud D w n₀ r := by
  have hpos : 0 < D.toNat * r := Nat.mul_pos hD hr
  have htoNat : (BitVec.ofNat 64 (D.toNat * r)).toNat = D.toNat * r := by
    rw [BitVec.toNat_ofNat, Nat.mod_eq_of_lt (by omega)]
  have htimes : UartDecoder64.Times (BitVec.ofNat 64 (D.toNat * r)) := by
    refine ⟨?_, ?_⟩
    · rwa [htoNat]
    · rwa [htoNat]
  have hcomplete : ∀ m, ((Uart.machine clockHz baud).run w (n₀ + m)).txBitsLeft.toNat = 0 →
      Uart.begun clockHz baud w n₀ ++ (UartDecoder64.machine (BitVec.ofNat 64 (D.toNat * r))).events
        (UartDecoder64.decoded (BitVec.ofNat 64 (D.toNat * r))) (Uart.sampled clockHz baud w n₀ r) (m * r) =
          Uart.begun clockHz baud w (n₀ + m) := by
    intro m hfree
    obtain ⟨bs, hbegun, hcarries⟩ := h.carries hD hr m hfree
    rw [UartDecoder64.events_toNat htimes, htoNat, (UartDecoder.run_carries hpos hcarries).2, hbegun]
  refine ⟨fun n hn m hnm htaken htaken' => ?_, fun k => ?_, hcomplete, fun m hidle => ?_⟩
  · exact h.ended hD hn hnm (Uart.taken_ne_nil.mp htaken) (Uart.free_of_pop (Uart.taken_ne_nil.mp htaken'))
  · obtain ⟨bs, hbegun, hheard⟩ := h.heard hD hr k
    have hframing := hheard.framingError
    have horder := hheard.order
    rw [← htoNat, ← UartDecoder64.run_toNat htimes] at hframing
    rw [← htoNat, ← UartDecoder64.events_toNat htimes] at horder
    refine ⟨hframing, ?_⟩
    rw [hbegun]
    exact (List.prefix_append_right_inj _).mpr horder
  · obtain ⟨hempty, hfree⟩ := Uart.txIdle_iff.mp hidle
    obtain ⟨q, hq, hsplit⟩ := Uart.written_run clockHz baud w (n₀ + m)
    rw [hq.count] at hempty
    rw [List.length_eq_zero_iff.mp hempty, List.append_nil] at hsplit
    rw [hcomplete m hfree, hsplit]

end UartCodec

/-- The decoder gives back the bytes of the stimulus as long as they are sent within the numbers of the cycle counter,
and those of the transmitter as long as one and a half bit times fit into the decoder's counter. -/
theorem uart_codec_round_trip (command : Bytes) (C start : BitVec 64) (hC : 1 ≤ C.toNat)
    (hend : start.toNat + 10 * C.toNat * command.length ≤ 2 ^ 64) (clockHz baud : Nat) (hclock : clockHz < 2 ^ 32)
    (D : BitVec 32) (w : Nat → UartIn) (n₀ r : Nat) (h : Uart.Paced clockHz baud D w n₀) (hr : 1 ≤ r)
    (hhalf : D.toNat * r + D.toNat * r / 2 ≤ 2 ^ 64) :
    UartCodec.RoundTrips C command start ∧ UartCodec.Recovers clockHz baud D w n₀ r := by
  have hD : 0 < D.toNat := by
    have htwo := Uart.two_le_baudDiv clockHz baud w hclock n₀
    rw [h.baudDiv n₀ (Nat.le_refl n₀)] at htwo
    omega
  refine ⟨UartCodec.roundTrips hC ?_, UartCodec.recovers hD hr h hhalf⟩
  unfold serialTime
  rwa [Nat.mul_comm command.length]

/-- The defaults of the simulation, and a byte written after reset whose line is sampled five times a cycle. -/
theorem uart_codec_round_trip_reset : UartCodec.RoundTrips 2170 [0x5a] 20 ∧
    UartCodec.Recovers 50000000 115200 (Uart.resetDiv 50000000 115200) writeFirst 0 5 :=
  uart_codec_round_trip [0x5a] 2170 20 (by decide) (by decide) 50000000 115200 (by decide) _ writeFirst 0 5
    transmits_writeFirst.paced (by decide) (by decide)

/-- At a bit time of 2^63 cycles the length of a frame overflows to zero, and the stimulus divides by it. -/
theorem uart_codec_overflows : ¬ ∀ (command : Bytes) (C start : BitVec 64), 1 ≤ C.toNat →
    UartCodec.RoundTrips C command start := by
  intro h
  obtain ⟨s, out, hfeed, -, -⟩ := (h [0] (BitVec.ofNat 64 (2 ^ 63)) 0 (by decide)).order 0 1 (by decide) (by decide)
  have hnone : UartCodec.feed (BitVec.ofNat 64 (2 ^ 63)) (UartStimulus64.start { bytes := [0] } 0) 0 1 = none := by
    decide +kernel
  rw [hnone] at hfeed
  cases hfeed

end SocRV
