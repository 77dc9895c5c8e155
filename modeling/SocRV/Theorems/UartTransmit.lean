import SocRV.Soc.UartTransmit

/-!
# Back-pressure and framing of the transmitter

A write of `TXDATA` is held off while the transmit FIFO is full.  Nothing keeps the program from disabling the
transmitter while it is: then the write waits forever, and with it the only bus master.
-/

namespace SocRV

/-! ## Back-pressure -/

namespace Uart

/-- A request that has to wait finds the transmitter enabled, and it does not wait forever. -/
structure BackPressure (s : Uart) : Prop where
  enabled : ∀ i, s.reqReady i = false → s.uartCtrl.getLsbD 0 = true
  served : ∀ i l, s.reqReady i = false → ∃ k, (holding s i l k).reqReady i = true

/-- The transmitter is disabled while its FIFO is full, and no byte is taken in that cycle. -/
def strands (s : Uart) (i : UartIn) : Bool :=
  s.configWrite i 0x04 && i.reqWstrb.getLsbD 0 && !i.reqWdata.getLsbD 0 && s.txFull && !s.txPop

variable {s : Uart} {i : UartIn} {q : List (BitVec 8)}

/-- A full FIFO behind a disabled transmitter is where the back-pressure fails. -/
theorem backPressure_iff : s.BackPressure ↔ (s.txFull = true → s.uartCtrl.getLsbD 0 = true) := by
  constructor
  · intro h hfull
    exact h.enabled { reqValid := true, reqWrite := true } (reqReady_eq_false.mpr ⟨rfl, hfull⟩)
  · intro h
    refine ⟨fun i hi => h (reqReady_eq_false.mp hi).2, fun i l hi => ?_⟩
    exact holding_ready (h (reqReady_eq_false.mp hi).2) l

/-- The transmit enable is bit 0 of what is written to the control register. -/
theorem getLsbD_uartCtrl_next : (s.next i).uartCtrl.getLsbD 0 =
    if s.configWrite i 0x04 && i.reqWstrb.getLsbD 0 then i.reqWdata.getLsbD 0 else s.uartCtrl.getLsbD 0 := by
  rw [next_uartCtrl]
  split
  · rw [BitVec.getLsbD_setWidth]
    rfl
  · rfl

/-- The control register and `TXDATA` are not written in one cycle. -/
theorem txPush_configWrite (h : s.txPush i = true) : s.configWrite i 0x04 = false := by
  unfold txPush at h
  simp only [Bool.and_eq_true, beq_iff_eq] at h
  unfold configWrite
  rw [h.1.1.2]
  exact Bool.and_false _

/-- A full FIFO keeps its transmitter enabled when no write strands it. -/
theorem enabled_next (hq : Queue s q) (h : s.txFull = true → s.uartCtrl.getLsbD 0 = true)
    (hstrand : s.strands i = false) (hfull : (s.next i).txFull = true) : (s.next i).uartCtrl.getLsbD 0 = true := by
  rw [getLsbD_uartCtrl_next]
  by_cases hsfull : s.txFull = true
  · have hpop : s.txPop = false := by
      rw [next_txFull hsfull, Bool.not_eq_true'] at hfull
      exact hfull
    unfold strands at hstrand
    rw [hsfull, hpop, Bool.not_false, Bool.and_true, Bool.and_true] at hstrand
    split
    · rename_i hwrite
      rwa [hwrite, Bool.true_and, Bool.not_eq_false'] at hstrand
    · exact h hsfull
  · -- the count went up to 4 in this cycle
    have hlt : s.txCount.toNat < 4 := by
      have hle : q.length ≤ 4 := hq.spans.le
      rw [← hq.count] at hle
      exact Nat.lt_of_le_of_ne hle fun h4 => hsfull (txFull_iff.mpr h4)
    have hpush : s.txPush i = true := by
      by_contra hne
      rw [Bool.not_eq_true] at hne
      have hcount := hq.count_next i (hq.room i) fun hpop => by rw [hq.head hpop]; exact Nat.succ_pos _
      have hnext : (s.next i).txCount.toNat = 4 := txFull_iff.mp hfull
      rw [hne, if_neg Bool.false_ne_true, ← hq.count, Nat.add_zero] at hcount
      have hval : (Uart.count s.txCount false s.txPop).toNat = 4 := by
        rw [← hnext, ← hne]
        rfl
      omega
    rw [txPush_configWrite hpush, Bool.false_and, if_neg Bool.false_ne_true]
    unfold txPush at hpush
    rw [Bool.and_eq_true] at hpush
    exact hpush.2

/-- A write that strands the FIFO leaves it full and disabled. -/
theorem stranded_next (h : s.strands i = true) :
    (s.next i).txFull = true ∧ (s.next i).uartCtrl.getLsbD 0 = false := by
  unfold strands at h
  simp only [Bool.and_eq_true, Bool.not_eq_true'] at h
  obtain ⟨⟨⟨⟨hwrite, hstrb⟩, hdata⟩, hfull⟩, hpop⟩ := h
  refine ⟨by rw [next_txFull hfull, hpop]; rfl, ?_⟩
  rw [getLsbD_uartCtrl_next, hwrite, hstrb, Bool.and_self, if_pos rfl, hdata]

end Uart

/-- The back-pressure is sound in every state of a run exactly when no write of the run disables the transmitter in front
of a full FIFO. -/
theorem uart_back_pressure_iff (clockHz baud : Nat) (w : Nat → UartIn) :
    (∀ n, Uart.BackPressure ((Uart.machine clockHz baud).run w n)) ↔
      ∀ n, Uart.strands ((Uart.machine clockHz baud).run w n) (w n) = false := by
  constructor
  · intro h n
    by_contra hne
    rw [Bool.not_eq_false] at hne
    obtain ⟨hfull, hoff⟩ := Uart.stranded_next hne
    have hon := Uart.backPressure_iff.mp (h (n + 1)) hfull
    exact Bool.false_ne_true (hoff.symm.trans hon)
  · intro h n
    rw [Uart.backPressure_iff]
    induction n with
    | zero =>
      intro _
      show (0b11 : BitVec 2).getLsbD 0 = true
      decide
    | succ n ih =>
      obtain ⟨q, hq, -⟩ := Uart.written_run clockHz baud w n
      exact Uart.enabled_next hq ih (h n)

/-- Five bytes fill the FIFO behind the shift register, and then the transmitter is disabled. -/
def disableWhileFull (n : Nat) : UartIn :=
  { reqValid := decide (n ≤ 5), reqWrite := true, reqAddr := if n = 5 then 0x010 else 0x000, reqWstrb := 0xf }

/-- From then on a write of `TXDATA` is refused forever. -/
theorem uart_deadlock : (¬ ∀ clockHz baud w n, Uart.BackPressure ((Uart.machine clockHz baud).run w n)) ∧
    ∀ l k, Uart.reqReady (Uart.holding ((Uart.machine 50000000 115200).run disableWhileFull 6) (disableWhileFull 0) l k)
      (disableWhileFull 0) = false := by
  have hready : ((Uart.machine 50000000 115200).run disableWhileFull 6).reqReady (disableWhileFull 0) = false := by
    decide +kernel
  have hoff : ((Uart.machine 50000000 115200).run disableWhileFull 6).uartCtrl.getLsbD 0 = false := by
    decide +kernel
  refine ⟨fun h => ?_, fun l k => (Uart.holding_stuck hready hoff l k).1⟩
  have hon := (h 50000000 115200 disableWhileFull 6).enabled _ hready
  exact Bool.false_ne_true (hoff.symm.trans hon)

/-! ## Framing -/

/-- What comes out of the transmitter in the run on `w` from cycle `n₀` on, with the divisor `D`. -/
structure Uart.Framing (clockHz baud : Nat) (D : BitVec 32) (w : Nat → UartIn) (n₀ : Nat) : Prop where
  /-- The frames begin in the order in which the bytes were accepted; the others are in the FIFO. -/
  order : ∀ n, written clockHz baud w n = begun clockHz baud w n ++ ((machine clockHz baud).run w n).txContents
  /-- The count is the distance of the pointers, and at most 4. -/
  count : ∀ n, ((machine clockHz baud).run w n).txCount.toNat ≤ 4 ∧
    (begun clockHz baud w n).length + ((machine clockHz baud).run w n).txCount.toNat =
      (written clockHz baud w n).length ∧
    ((machine clockHz baud).run w n).txWrPtr =
      ((machine clockHz baud).run w n).txRdPtr + BitVec.ofNat 2 ((machine clockHz baud).run w n).txCount.toNat
  /-- The bits of a frame are on the line for `D` cycles each, and no other frame begins meanwhile. -/
  frame : ∀ n ≥ n₀, ∀ b, taken ((machine clockHz baud).run w n) = [b] → ∀ c < 10 * D.toNat,
    ((machine clockHz baud).run w (n + 1 + c)).uartTx = (serialFrame b).getD (c / D.toNat) true ∧
      taken ((machine clockHz baud).run w (n + 1 + c)) = []
  /-- Outside the frames the line is high. -/
  high : ∀ n ≥ n₀, (∀ m, n₀ ≤ m → m < n → taken ((machine clockHz baud).run w m) ≠ [] → m + 10 * D.toNat < n) →
    ((machine clockHz baud).run w n).uartTx = true
  /-- A byte in the FIFO does not wait longer than a frame for the next one to begin. -/
  progress : ∀ n ≥ n₀, ((machine clockHz baud).run w n).txContents ≠ [] →
    ∃ m ≥ n, m ≤ n + 10 * D.toNat ∧ taken ((machine clockHz baud).run w m) ≠ []
  /-- The transmitter is idle only when all frames have begun and ended. -/
  idle : ∀ n ≥ n₀, ((machine clockHz baud).run w n).txIdle = true → written clockHz baud w n = begun clockHz baud w n ∧
    ∀ m, n₀ ≤ m → m < n → taken ((machine clockHz baud).run w m) ≠ [] → m + 10 * D.toNat < n

namespace Uart

theorem taken_ne_nil {s : Uart} : taken s ≠ [] ↔ s.txPop = true := by
  unfold taken
  split <;> simp_all

/-- The transmitter is idle when nothing is queued and nothing is sent. -/
theorem txIdle_iff {s : Uart} : s.txIdle = true ↔ s.txCount.toNat = 0 ∧ s.txBitsLeft.toNat = 0 := by
  unfold txIdle txEmpty
  rw [Bool.and_eq_true, toNat_beq_zero, toNat_beq_zero, decide_eq_true_eq, decide_eq_true_eq]

/-- While the line is free, every frame has ended. -/
theorem Paced.ended {clockHz baud : Nat} {D : BitVec 32} {w : Nat → UartIn} {n₀ : Nat}
    (h : Paced clockHz baud D w n₀) (hD : 0 < D.toNat) {n m : Nat} (hm : n₀ ≤ m) (hmn : m < n)
    (hpop : ((machine clockHz baud).run w m).txPop = true)
    (hfree : ((machine clockHz baud).run w n).txBitsLeft.toNat = 0) : m + 10 * D.toNat < n := by
  by_contra hle
  obtain ⟨c, rfl⟩ := Nat.exists_eq_add_of_le (show m + 1 ≤ n by omega)
  exact (h.frame hD hm (taken_some hpop) (by omega)).left_ne hfree

end Uart

/-- Every byte accepted is sent in a frame of its own, in order. -/
theorem uart_framing (clockHz baud : Nat) (hclock : clockHz < 2 ^ 32) (D : BitVec 32) (w : Nat → UartIn) (n₀ : Nat)
    (h : Uart.Transmits clockHz baud D w n₀) : Uart.Framing clockHz baud D w n₀ := by
  have hD : 0 < D.toNat := by
    have htwo := Uart.two_le_baudDiv clockHz baud w hclock n₀
    rw [h.baudDiv n₀ (Nat.le_refl n₀)] at htwo
    omega
  refine ⟨fun n => ?_, fun n => ?_, fun n hn b hb c hc => ?_, fun n hn hout => ?_, fun n hn hpos => ?_, fun n hn hidle => ?_⟩
  · obtain ⟨q, hq, hsplit⟩ := Uart.written_run clockHz baud w n
    rw [hq.contents]
    exact hsplit
  · obtain ⟨q, hq, hsplit⟩ := Uart.written_run clockHz baud w n
    have hlen := congrArg List.length hsplit
    rw [List.length_append] at hlen
    rw [hq.count]
    exact ⟨hq.spans.le, hlen.symm, hq.spans.wr_eq⟩
  · have hshifts := h.paced.frame hD hn hb hc
    exact ⟨hshifts.tx, Uart.taken_none hshifts.txPop⟩
  · refine Uart.tx_of_free ?_
    by_contra hbusy
    obtain ⟨m, hm, hmn, hle, hpop⟩ := h.paced.within hD hn hbusy
    have hend := hout m hm hmn (Uart.taken_ne_nil.mpr hpop)
    omega
  · have hcount : 0 < ((Uart.machine clockHz baud).run w n).txCount.toNat := by
      refine Nat.pos_of_ne_zero fun h0 => hpos ?_
      unfold Uart.txContents
      rw [h0]
      rfl
    obtain ⟨m, hm, hle, hpop⟩ := h.progress hD hn hcount
    exact ⟨m, hm, hle, Uart.taken_ne_nil.mpr hpop⟩
  · obtain ⟨hempty, hfree⟩ := Uart.txIdle_iff.mp hidle
    obtain ⟨q, hq, hsplit⟩ := Uart.written_run clockHz baud w n
    rw [hq.count] at hempty
    rw [List.length_eq_zero_iff.mp hempty, List.append_nil] at hsplit
    exact ⟨hsplit, fun m hm hmn hpop => h.paced.ended hD hm hmn (Uart.taken_ne_nil.mp hpop) hfree⟩

/-- A byte is written in the first cycle. -/
def writeFirst (n : Nat) : UartIn :=
  { reqValid := n == 0, reqWrite := true, reqAddr := 0x000, reqWdata := 0x5a, reqWstrb := 0xf }

/-- The run that writes one byte keeps the transmitter enabled. -/
theorem transmits_writeFirst :
    Uart.Transmits 50000000 115200 (Uart.resetDiv 50000000 115200) writeFirst 0 := by
  have hconfig : ∀ n r, r ≠ 0x00 → ((Uart.machine 50000000 115200).run writeFirst n).configWrite (writeFirst n) r = false := by
    intro n r hr
    unfold Uart.configWrite
    have hreg : Uart.register (writeFirst n) = 0x00 := by
      show (0x000 : BitVec 12).extractLsb' 2 6 = 0x00
      decide
    rw [hreg, beq_false_of_ne (Ne.symm hr), Bool.and_false]
  refine ⟨rfl, fun n _ => ?_, fun n _ => ?_⟩
  · induction n with
    | zero => rfl
    | succ n ih =>
      show (if _ then _ else ((Uart.machine 50000000 115200).run writeFirst n).baudDiv) = _
      rw [hconfig n 0x03 (by decide), Bool.false_and, Bool.false_and, if_neg Bool.false_ne_true]
      exact ih (Nat.zero_le n)
  · induction n with
    | zero => decide
    | succ n ih =>
      show (((Uart.machine 50000000 115200).run writeFirst n).next (writeFirst n)).uartCtrl.getLsbD 0 = true
      rw [Uart.getLsbD_uartCtrl_next, hconfig n 0x04 (by decide), Bool.false_and, if_neg Bool.false_ne_true]
      exact ih (Nat.zero_le n)

theorem uart_framing_reset : 50000000 < 2 ^ 32 ∧
    Uart.Framing 50000000 115200 (Uart.resetDiv 50000000 115200) writeFirst 0 :=
  ⟨by decide, uart_framing 50000000 115200 (by decide) _ writeFirst 0 transmits_writeFirst⟩

end SocRV
