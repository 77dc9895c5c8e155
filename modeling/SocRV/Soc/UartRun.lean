import SocRV.Soc.UartFifo

/-!
# A UART that hears itself

What was accepted and is not received yet is pending, in the FIFO or on the line.  While bytes keep their order there,
each cycle without a new byte brings the end of the transfer closer.
-/

namespace SocRV

namespace Uart

/-- The bytes accepted and not received yet, oldest first. -/
def Pending (d : Nat) (s : Uart) (p : List (BitVec 8)) : Prop := ∃ l q, Link d s l ∧ Queue s q ∧ p = l ++ q

/-- How many cycles at most the byte on the line still takes. -/
def lineWork (d : Nat) (s : Uart) : Nat :=
  if s.txBitsLeft.toNat = 0 then (if s.rxBusy then s.rxBaudCount.toNat + 1 else 0)
  else (s.txBitsLeft.toNat - 1) * d + s.txBaudCount.toNat + 3

/-- How many cycles at most the accepted bytes still take. -/
def work (d : Nat) (s : Uart) : Nat := s.txCount.toNat * (10 * d + 4) + lineWork d s

section Work

variable {d : Nat} {s : Uart} {i : UartIn} {b : BitVec 8} {k c : Nat} {l q p : List (BitVec 8)}

/-- The work left of a frame on the line. -/
theorem Sends.lineWork (h : Sends d s b k c) : Uart.lineWork d s = (9 - k) * d + c + 3 := by
  have hleft := h.left
  have hk := h.bit_lt
  unfold Uart.lineWork
  rw [if_neg (by omega), h.count, show s.txBitsLeft.toNat - 1 = 9 - k by omega]

/-- The work left while the line rests is that of the receiver. -/
theorem Rests.lineWork (h : Rests s) : Uart.lineWork d s = if s.rxBusy then s.rxBaudCount.toNat + 1 else 0 := by
  unfold Uart.lineWork
  rw [h.left]
  rfl

/-- Once the line rests, only the stop bit is left to be sampled. -/
theorem Link.rests_work (h : Link d s l) (hr : Rests s) : Uart.lineWork d s ≤ 2 := by
  have hleft : s.txBitsLeft.toNat = 0 := by
    rw [hr.left]
    rfl
  have hnot : ∀ {b : BitVec 8} {k c : Nat}, ¬ Sends d s b k c := by
    intro b k c hs
    have hk := hs.bit_lt
    have hsum := hs.left
    omega
  rw [hr.lineWork]
  cases h with
  | rest hs hb =>
    rw [hb, if_neg Bool.false_ne_true]
    exact Nat.zero_le 2
  | last hs hrx hn =>
    rw [hrx.busy, if_pos rfl, hrx.count]
    omega
  | wait hs hc hb => exact absurd hs hnot
  | overlap hs hrx => exact absurd hs hnot
  | both hs hrx hj hn hlag => exact absurd hs hnot
  | done hs hc hb => exact absurd hs hnot

variable (hd : 3 ≤ d) (hw : Wired d s i)

include hd hw

/-- A cycle of sending brings the end of the byte closer. -/
theorem Sends.work_next (h : Sends d s b k c) (hl : Link d (s.next i) l) :
    Uart.lineWork d (s.next i) + 1 ≤ Uart.lineWork d s := by
  have hk := h.bit_lt
  rw [h.lineWork]
  by_cases h0 : c = 0
  · subst h0
    by_cases hk9 : k < 9
    · have hsucc : 9 - k = 9 - (k + 1) + 1 := by omega
      rw [(h.next_bit hk9 hd hw.baud hw.line).lineWork, hsucc, Nat.succ_mul]
      omega
    · have hk9' : k = 9 := by omega
      subst hk9'
      have hle := hl.rests_work (h.next_rest hd hw.line)
      omega
  · rw [(h.next_count h0 hw.line).lineWork]
    omega

/-- Without a byte to take, a cycle brings the end closer or there is nothing left. -/
theorem Link.work_next (h : Link d s l) (hpop : s.txPop = false) :
    Uart.lineWork d (s.next i) ≤ Uart.lineWork d s - 1 := by
  obtain ⟨l', hl', -⟩ := h.next hd hw
  have hsend : ∀ {b : BitVec 8} {k c : Nat}, Sends d s b k c →
      Uart.lineWork d (s.next i) ≤ Uart.lineWork d s - 1 := by
    intro b k c hs
    have hlt := hs.work_next hd hw hl'
    omega
  cases h with
  | rest hs hb =>
    obtain ⟨hbusy, -⟩ := next_waits i hb hs.rxSync
    rw [(hs.next hpop hw.line).lineWork, hbusy]
    exact Nat.zero_le _
  | last hs hrx hn =>
    rw [(hs.next hpop hw.line).lineWork, hs.lineWork, hrx.busy, if_pos rfl, hrx.count]
    rename_i b n
    by_cases h0 : n = 0
    · subst h0
      simp [(hrx.next_stop i hs.rxSync hw.room).1]
    · obtain ⟨hrx', -⟩ := hrx.next_count i h0
      rw [hrx'.busy, if_pos rfl, hrx'.count]
      omega
  | wait hs hc hb => exact hsend hs
  | overlap hs hrx => exact hsend hs
  | both hs hrx hj hn hlag => exact hsend hs
  | done hs hc hb => exact hsend hs

omit hd hw in
/-- A byte is taken only when the line rests. -/
theorem Link.rests_of_pop (h : Link d s l) (hpop : s.txPop = true) : Rests s := by
  have hnot : ∀ {b : BitVec 8} {k c : Nat}, ¬ Sends d s b k c :=
    fun hs => Bool.false_ne_true (hs.txPop.symm.trans hpop)
  cases h with
  | rest hs hb => exact hs
  | last hs hrx hn => exact hs
  | wait hs hc hb => exact absurd hs hnot
  | overlap hs hrx => exact absurd hs hnot
  | both hs hrx hj hn hlag => exact absurd hs hnot
  | done hs hc hb => exact absurd hs hnot

/-- A cycle without a new byte brings the end of the transfer closer. -/
theorem work_next (hl : Link d s l) (hq : Queue s q) (hpush : s.txPush i = false) :
    work d (s.next i) ≤ work d s - 1 := by
  have hcount := hq.count_next i (hq.room i)
  rw [hpush] at hcount
  have hnext : (s.next i).txCount = count s.txCount false s.txPop := by
    unfold Uart.next
    rw [hpush]
  unfold work
  rw [hnext, hq.count]
  cases hpop : s.txPop with
  | true =>
    have hhead := hq.head hpop
    have hlen : q.length = (q.drop 1).length + 1 := by
      conv_lhs => rw [hhead]
      rfl
    have hcount' := hcount fun _ => by omega
    rw [hpop, if_pos rfl, if_neg Bool.false_ne_true] at hcount'
    have hval : (count s.txCount false true).toNat = (q.drop 1).length := by omega
    have hsend := (hl.rests_of_pop hpop).next_pop hpop hd hw.baud hw.line
    rw [hval, hsend.lineWork, hlen, Nat.succ_mul (q.drop 1).length, Nat.sub_zero]
    omega
  | false =>
    have hstay : (count s.txCount false false).toNat = q.length := hq.count
    have hline := hl.work_next hd hw hpop
    rw [hstay]
    by_cases h0 : Uart.lineWork d s = 0
    · have hleft : s.txBitsLeft.toNat = 0 := by
        unfold Uart.lineWork at h0
        split at h0 <;> omega
      unfold txPop txEmpty at hpop
      rw [hw.ctrl, toNat_beq_zero s.txBitsLeft, decide_eq_true hleft, toNat_beq_zero, hq.count] at hpop
      have hnil : q.length = 0 := by simpa using hpop
      rw [hnil]
      omega
    · omega

omit hw in
/-- When no work is left, nothing is pending. -/
theorem Pending.eq_nil (h : Pending d s p) (hwork : work d s = 0) : p = [] := by
  obtain ⟨l, q, hl, hq, rfl⟩ := h
  have hfactor : 1 ≤ 10 * d + 4 := by omega
  unfold work at hwork
  have hzero : s.txCount.toNat * (10 * d + 4) = 0 := by omega
  have hq0 : q = [] := by
    rw [hq.count] at hzero
    rcases Nat.mul_eq_zero.mp hzero with h0 | h0
    · exact List.length_eq_zero_iff.mp h0
    · omega
  have hline : Uart.lineWork d s = 0 := by omega
  have hnot : ∀ {b : BitVec 8} {k c : Nat}, ¬ Sends d s b k c := by
    intro b k c hs
    have := hs.lineWork
    omega
  rw [hq0, List.append_nil]
  cases hl with
  | rest hs hb => rfl
  | last hs hrx hn =>
    rw [hs.lineWork, hrx.busy, if_pos rfl] at hline
    omega
  | wait hs hc hb => exact absurd hs hnot
  | overlap hs hrx => exact absurd hs hnot
  | both hs hrx hj hn hlag => exact absurd hs hnot
  | done hs hc hb => rfl

/-- A cycle: what it accepts goes behind what is pending, and what it delivers is the oldest byte pending. -/
theorem Pending.next (h : Pending d s p) :
    ∃ p', Pending d (s.next i) p' ∧ p ++ accepts s i = delivers s i ++ p' := by
  obtain ⟨l, q, hl, hq, rfl⟩ := h
  obtain ⟨l', hl', hline⟩ := hl.next hd hw
  obtain ⟨q', hq', hfifo⟩ := hq.next i
  refine ⟨l' ++ q', ⟨l', q', hl', hq', rfl⟩, ?_⟩
  calc l ++ q ++ accepts s i = l ++ (taken s ++ q') := by rw [List.append_assoc, hfifo]
    _ = delivers s i ++ (l' ++ q') := by rw [← List.append_assoc, hline, List.append_assoc]

end Work

/-! ## Runs -/

/-- Nothing is on its way, and the receiver waits. -/
structure Quiet (s : Uart) : Prop where
  rests : Rests s
  waits : s.rxBusy = false
  empty : Queue s []

theorem quiet_reset (clockHz baud : Nat) : Quiet (reset clockHz baud) :=
  ⟨⟨rfl, rfl, rfl⟩, rfl, ⟨Ring.Spans.empty _ _, rfl⟩⟩

/-- On a quiet link nothing is on its way. -/
theorem Quiet.pending {d : Nat} {s : Uart} (h : Quiet s) : Pending d s [] :=
  ⟨[], [], .rest h.rests h.waits, h.empty, rfl⟩

/-- It stays quiet until the first byte is accepted. -/
theorem Quiet.next {s : Uart} {i : UartIn} (h : Quiet s) (hpush : s.txPush i = false) (hline : i.uartRx = s.uartTx) :
    Quiet (s.next i) ∧ accepts s i = [] ∧ delivers s i = [] := by
  have haccepts : accepts s i = [] := by
    unfold accepts
    rw [hpush, if_neg Bool.false_ne_true]
  have hpop : s.txPop = false := by
    by_contra hne
    rw [Bool.not_eq_false] at hne
    exact absurd (h.empty.head hne) (by simp)
  obtain ⟨q', hq', hfifo⟩ := h.empty.next i
  rw [haccepts, taken_none hpop, List.nil_append, List.nil_append] at hfifo
  subst hfifo
  obtain ⟨hbusy, hstore⟩ := next_waits i h.waits h.rests.rxSync
  exact ⟨⟨h.rests.next hpop hline, hbusy, hq'⟩, haccepts, delivers_none hstore⟩

variable (clockHz baud : Nat) (D : BitVec 32) (w : Nat → UartIn) (n₀ : Nat)

/-- The bytes accepted into the transmit FIFO in the first cycles of a run, and the bytes pushed into the receive
FIFO. -/
def accepted (n : Nat) : List (BitVec 8) := (loopback clockHz baud).events accepts w n

@[inherit_doc accepted]
def received (n : Nat) : List (BitVec 8) := (loopback clockHz baud).events delivers w n

/-- Bytes are exchanged from cycle `n₀` on: none is pushed before, and from then on the divisor is `D`, both directions
are enabled and the receive FIFO is never full. -/
structure Exchange : Prop where
  before : ∀ n < n₀, ((loopback clockHz baud).run w n).txPush (w n) = false
  baudDiv : ∀ n ≥ n₀, ((loopback clockHz baud).run w n).baudDiv = D
  uartCtrl : ∀ n ≥ n₀, ((loopback clockHz baud).run w n).uartCtrl = 0b11
  rxFull : ∀ n ≥ n₀, ((loopback clockHz baud).run w n).rxFull = false

/-- What is received is always the first part of what was accepted, and all of it some time after the last byte. -/
def RoundTrip : Prop :=
  (∀ n, received clockHz baud w n <+: accepted clockHz baud w n) ∧
    ∀ m, (∀ n ≥ m, ((loopback clockHz baud).run w n).txPush (w n) = false) →
      ∃ e, ∀ n ≥ e, received clockHz baud w n = accepted clockHz baud w n

/-- Every exchange at the divisor is a round trip. -/
def RoundTrips (D : BitVec 32) : Prop :=
  ∀ clockHz baud w n₀, Exchange clockHz baud D w n₀ → RoundTrip clockHz baud w

variable {clockHz baud D w n₀}

/-- Until the exchange starts, nothing is accepted or received. -/
theorem Exchange.quiet (h : Exchange clockHz baud D w n₀) {n : Nat} (hn : n ≤ n₀) :
    Quiet ((loopback clockHz baud).run w n) ∧ accepted clockHz baud w n = [] ∧ received clockHz baud w n = [] := by
  induction n with
  | zero => exact ⟨quiet_reset clockHz baud, rfl, rfl⟩
  | succ n ih =>
    obtain ⟨hquiet, haccepted, hreceived⟩ := ih (Nat.le_of_succ_le hn)
    obtain ⟨hnext, haccepts, hdelivers⟩ :=
      hquiet.next (i := { w n with uartRx := ((loopback clockHz baud).run w n).uartTx }) (h.before n hn) rfl
    refine ⟨hnext, ?_, ?_⟩
    · show accepted clockHz baud w n ++ _ = []
      rw [haccepted]
      exact haccepts
    · show received clockHz baud w n ++ _ = []
      rw [hreceived]
      exact hdelivers

/-- During an exchange the line is wired back and the receiver has room. -/
theorem Exchange.wired (h : Exchange clockHz baud D w n₀) {n : Nat} (hn : n₀ ≤ n) :
    Wired D.toNat ((loopback clockHz baud).run w n)
      { w n with uartRx := ((loopback clockHz baud).run w n).uartTx } :=
  ⟨by rw [h.baudDiv n hn], h.uartCtrl n hn, h.rxFull n hn, rfl⟩

/-- What was accepted is what was received and what is pending. -/
theorem Exchange.pending (h : Exchange clockHz baud D w n₀) (hD : 3 ≤ D.toNat) (n : Nat) (hn : n₀ ≤ n) :
    ∃ p, Pending D.toNat ((loopback clockHz baud).run w n) p ∧
      accepted clockHz baud w n = received clockHz baud w n ++ p := by
  induction n, hn using Nat.le_induction with
  | base =>
    obtain ⟨hquiet, haccepted, hreceived⟩ := h.quiet (Nat.le_refl n₀)
    exact ⟨[], hquiet.pending, by rw [haccepted, hreceived]; rfl⟩
  | succ n hn ih =>
    obtain ⟨p, hp, hsplit⟩ := ih
    obtain ⟨p', hp', hstep⟩ := hp.next hD (h.wired hn)
    refine ⟨p', hp', ?_⟩
    show accepted clockHz baud w n ++ _ = received clockHz baud w n ++ _ ++ p'
    rw [hsplit, List.append_assoc, List.append_assoc]
    exact congrArg (received clockHz baud w n ++ ·) hstep

/-- Each cycle without a new byte brings the end of the transfer closer. -/
theorem Exchange.work_le (h : Exchange clockHz baud D w n₀) (hD : 3 ≤ D.toNat) {m : Nat} (hm : n₀ ≤ m)
    (hrest : ∀ n ≥ m, ((loopback clockHz baud).run w n).txPush (w n) = false) (n : Nat) :
    work D.toNat ((loopback clockHz baud).run w (m + n)) ≤ work D.toNat ((loopback clockHz baud).run w m) - n := by
  induction n with
  | zero => exact Nat.le_refl _
  | succ n ih =>
    have hle : n₀ ≤ m + n := Nat.le_trans hm (Nat.le_add_right m n)
    obtain ⟨p, ⟨l, q, hl, hq, -⟩, -⟩ := h.pending hD (m + n) hle
    have hstep := work_next hD (h.wired hle) hl hq (hrest (m + n) (Nat.le_add_right m n))
    refine Nat.le_trans hstep ?_
    omega

/-- With a divisor of at least 3, what was accepted is received. -/
theorem Exchange.roundTrip (h : Exchange clockHz baud D w n₀) (hD : 3 ≤ D.toNat) : RoundTrip clockHz baud w := by
  refine ⟨fun n => ?_, fun m hrest => ?_⟩
  · rcases Nat.le_total n n₀ with hn | hn
    · obtain ⟨-, -, hreceived⟩ := h.quiet hn
      rw [hreceived]
      exact List.nil_prefix
    · obtain ⟨p, -, hsplit⟩ := h.pending hD n hn
      exact ⟨p, hsplit.symm⟩
  · have hrest' : ∀ n ≥ max m n₀, ((loopback clockHz baud).run w n).txPush (w n) = false :=
      fun n hn => hrest n (by omega)
    refine ⟨max m n₀ + work D.toNat ((loopback clockHz baud).run w (max m n₀)), fun n hn => ?_⟩
    obtain ⟨k, rfl⟩ := Nat.exists_eq_add_of_le (show max m n₀ ≤ n by omega)
    have hwork := h.work_le hD (Nat.le_max_right m n₀) hrest' k
    obtain ⟨p, hp, hsplit⟩ := h.pending hD (max m n₀ + k) (by omega)
    rw [hp.eq_nil hD (by omega), List.append_nil] at hsplit
    exact hsplit.symm

end Uart

end SocRV
