import SocRV.Soc.UartLine

/-!
# The line between transmitter and receiver

Where the receiver is in a frame is tied to where the transmitter is: both count down the same divisor, and the receiver
lags behind by the synchroniser and half a bit.  With a divisor of at least 3 the lag is less than a bit, so each sample
is taken inside the bit it is meant for.
-/

namespace SocRV

namespace Uart

/-! ## Bits on the line -/

/-- Bit `k` of `b` is on the line for `c` more cycles after this one; the flip-flops hold the line of the cycles
before. -/
structure Sends (d : Nat) (s : Uart) (b : BitVec 8) (k c : Nat) : Prop where
  bit_lt : k < 10
  count_lt : c < d
  left : s.txBitsLeft.toNat + k = 10
  count : s.txBaudCount.toNat = c
  shift : ∀ m < 10, s.txShift.getLsbD m = lineBit b (k + m)
  rxMeta : s.rxMeta = if c + 1 < d then lineBit b k else prevBit b k
  rxSync : s.rxSync = if c + 2 < d then lineBit b k else prevBit b k
  rxSyncQ : s.rxSyncQ = if c + 3 < d then lineBit b k else prevBit b k

/-- Nothing is on the line, and the flip-flops have seen that. -/
structure Rests (s : Uart) : Prop where
  left : s.txBitsLeft = 0
  rxMeta : s.rxMeta = true
  rxSync : s.rxSync = true

/-- The receiver has the first bits of `b` and waits `i` more cycles to sample bit `j`. -/
structure Receives (s : Uart) (b : BitVec 8) (j i : Nat) : Prop where
  busy : s.rxBusy = true
  index : s.rxBitIndex.toNat = j
  count : s.rxBaudCount.toNat = i
  bits : ∀ m, m + 1 < j → s.rxShift.getLsbD m = b.getLsbD m

/-! ## The transmitter -/

section Transmitter

variable {d : Nat} {s : Uart} {b : BitVec 8} {k c : Nat} {i : UartIn}

/-- A frame on the line is one in the shift register. -/
theorem Sends.shifts (h : Sends d s b k c) : Shifts d s b k c := ⟨h.left, h.count, h.shift, h.bit_lt, h.count_lt⟩

/-- The line shows the bit that is sent. -/
theorem Sends.tx (h : Sends d s b k c) : s.uartTx = lineBit b k := h.shifts.tx

/-- A line at rest is high. -/
theorem Rests.tx (h : Rests s) : s.uartTx = true := by
  refine tx_of_free ?_
  rw [h.left]
  rfl

/-- Nothing is taken from the transmit FIFO while a frame is sent. -/
theorem Sends.txPop (h : Sends d s b k c) : s.txPop = false := h.shifts.txPop

/-- Within a bit, the counter goes down. -/
theorem Sends.next_count (h : Sends d s b k c) (hc : c ≠ 0) (hi : i.uartRx = s.uartTx) :
    Sends d (s.next i) b k (c - 1) := by
  have hlt := h.count_lt
  have hnext := h.shifts.next_count i hc
  refine ⟨hnext.bit_lt, hnext.count_lt, hnext.left, hnext.count, hnext.shift, ?_, ?_, ?_⟩
  · rw [show (s.next i).rxMeta = i.uartRx from rfl, hi, h.tx, if_pos (by omega)]
  · rw [show (s.next i).rxSync = s.rxMeta from rfl, h.rxMeta, show c - 1 + 2 = c + 1 by omega]
  · rw [show (s.next i).rxSyncQ = s.rxSync from rfl, h.rxSync, show c - 1 + 3 = c + 2 by omega]

/-- Behind a bit comes the next one. -/
theorem Sends.next_bit (h : Sends d s b k 0) (hk9 : k < 9) (hd : 3 ≤ d) (hbaud : s.baudDiv.toNat = d)
    (hi : i.uartRx = s.uartTx) : Sends d (s.next i) b (k + 1) (d - 1) := by
  have hnext := h.shifts.next_bit i hk9 (by omega) hbaud
  refine ⟨hnext.bit_lt, hnext.count_lt, hnext.left, hnext.count, hnext.shift, ?_, ?_, ?_⟩
  · rw [show (s.next i).rxMeta = i.uartRx from rfl, hi, h.tx, if_neg (by omega)]
    rfl
  · rw [show (s.next i).rxSync = s.rxMeta from rfl, h.rxMeta, if_pos (by omega), if_neg (by omega)]
    rfl
  · rw [show (s.next i).rxSyncQ = s.rxSync from rfl, h.rxSync, if_pos (by omega), if_neg (by omega)]
    rfl

/-- Behind the stop bit the line rests. -/
theorem Sends.next_rest (h : Sends d s b 9 0) (hd : 3 ≤ d) (hi : i.uartRx = s.uartTx) : Rests (s.next i) := by
  refine ⟨BitVec.eq_of_toNat_eq (h.shifts.next_free i), ?_, ?_⟩
  · rw [show (s.next i).rxMeta = i.uartRx from rfl, hi, h.tx, lineBit_high b (Nat.le_refl 9)]
  · rw [show (s.next i).rxSync = s.rxMeta from rfl, h.rxMeta, if_pos (by omega), lineBit_high b (Nat.le_refl 9)]

/-- A line at rest stays so while there is nothing to send. -/
theorem Rests.next (h : Rests s) (hpop : s.txPop = false) (hi : i.uartRx = s.uartTx) : Rests (s.next i) := by
  have hleft : s.txBitsLeft.toNat = 0 := by
    rw [h.left]
    rfl
  refine ⟨BitVec.eq_of_toNat_eq (free_next i hleft hpop), ?_, ?_⟩
  · rw [show (s.next i).rxMeta = i.uartRx from rfl, hi, h.tx]
  · rw [show (s.next i).rxSync = s.rxMeta from rfl, h.rxMeta]

/-- A byte taken from the FIFO starts with its start bit. -/
theorem Rests.next_pop (h : Rests s) (hpop : s.txPop = true) (hd : 3 ≤ d) (hbaud : s.baudDiv.toNat = d)
    (hi : i.uartRx = s.uartTx) : Sends d (s.next i) (s.txFifo s.txRdPtr) 0 (d - 1) := by
  have hnext := shifts_of_pop i hpop (d := d) (by omega) hbaud
  refine ⟨hnext.bit_lt, hnext.count_lt, hnext.left, hnext.count, hnext.shift, ?_, ?_, ?_⟩
  · rw [show (s.next i).rxMeta = i.uartRx from rfl, hi, h.tx, if_neg (by omega)]
    rfl
  · rw [show (s.next i).rxSync = s.rxMeta from rfl, h.rxMeta, if_neg (by omega)]
    rfl
  · rw [show (s.next i).rxSyncQ = s.rxSync from rfl, h.rxSync, if_neg (by omega)]
    rfl

end Transmitter

/-! ## The receiver -/

section Receiver

variable {s : Uart} {b : BitVec 8} {j c : Nat} (i : UartIn)

/-- A sample changes its bit of the shift register only. -/
theorem sample_bit (x : BitVec 8) (v : Bool) {p m : Nat} (hp : p < 8) (hm : m < 8) :
    (if v then x ||| 1#8 <<< p else x &&& ~~~(1#8 <<< p)).getLsbD m = if p = m then v else x.getLsbD m := by
  have hone : (1#8 <<< p).getLsbD m = decide (p = m) := by
    rw [← BitVec.twoPow_eq, BitVec.getLsbD_twoPow, decide_eq_true hp, Bool.true_and]
  cases v
  · rw [if_neg Bool.false_ne_true, BitVec.getLsbD_and, BitVec.getLsbD_not, hone, decide_eq_true hm]
    by_cases hpm : p = m
    · rw [if_pos hpm, decide_eq_true hpm]
      simp
    · rw [if_neg hpm, decide_eq_false hpm]
      simp
  · rw [if_pos rfl, BitVec.getLsbD_or, hone]
    by_cases hpm : p = m
    · rw [if_pos hpm, decide_eq_true hpm, Bool.or_true]
    · rw [if_neg hpm, decide_eq_false hpm, Bool.or_false]

/-- Between samples, the counter goes down. -/
theorem Receives.next_count (h : Receives s b j c) (hc : c ≠ 0) :
    Receives (s.next i) b j (c - 1) ∧ s.rxStore = false := by
  have hcount := h.count
  have hrx : s.rxNext = (true, s.rxBitIndex, s.rxBaudCount - 1, s.rxShift) := by
    unfold rxNext
    rw [h.busy, bne, toNat_beq_zero, decide_eq_false (by omega)]
    rfl
  refine ⟨⟨?_, ?_, ?_, ?_⟩, ?_⟩
  · rw [next, hrx]
  · rw [next, hrx]
    exact h.index
  · rw [next, hrx]
    exact (toNat_pred _ (by omega)).trans (by rw [hcount])
  · rw [next, hrx]
    exact h.bits
  · unfold rxStore
    rw [toNat_beq_zero s.rxBaudCount, decide_eq_false (by omega)]
    simp

/-- A falling edge starts the receiver, half a bit before its first sample. -/
theorem next_detect (b : BitVec 8) (hbusy : s.rxBusy = false) (hctrl : s.uartCtrl.getLsbD 1 = true) (hq : s.rxSyncQ = true)
    (hsync : s.rxSync = false) : Receives (s.next i) b 0 (s.baudDiv.toNat / 2) ∧ s.rxStore = false := by
  have hrx : s.rxNext = (true, (0 : BitVec 4), s.baudDiv >>> 1, s.rxShift) := by
    unfold rxNext
    rw [hbusy, hctrl, hq, hsync]
    rfl
  refine ⟨⟨?_, ?_, ?_, fun m hm => absurd hm (Nat.not_lt_zero _)⟩, ?_⟩
  · rw [next, hrx]
  · rw [next, hrx]
    rfl
  · rw [next, hrx]
    dsimp only
    rw [BitVec.toNat_ushiftRight, Nat.shiftRight_eq_div_pow]
  · unfold rxStore
    rw [hbusy]
    rfl

/-- Without a falling edge, a receiver that is not busy stays so. -/
theorem next_waits (hbusy : s.rxBusy = false) (hsync : s.rxSync = true) :
    (s.next i).rxBusy = false ∧ s.rxStore = false := by
  have hrx : s.rxNext = (s.rxBusy, s.rxBitIndex, s.rxBaudCount, s.rxShift) := by
    unfold rxNext
    rw [hbusy, hsync]
    simp
  constructor
  · rw [next, hrx]
    exact hbusy
  · unfold rxStore
    rw [hbusy]
    rfl

/-- A start bit that is still there lets the receiver go on. -/
theorem Receives.next_start (h : Receives s b 0 0) (hsync : s.rxSync = false) (hd : 0 < s.baudDiv.toNat) :
    Receives (s.next i) b 1 (s.baudDiv.toNat - 1) ∧ s.rxStore = false := by
  have hcount := h.count
  have hindex := h.index
  have hrx : s.rxNext = (true, (1 : BitVec 4), s.baudDiv - 1, s.rxShift) := by
    unfold rxNext
    rw [h.busy, bne, toNat_beq_zero, decide_eq_true hcount, toNat_beq_zero, decide_eq_true hindex, hsync]
    rfl
  refine ⟨⟨?_, ?_, ?_, fun m hm => absurd hm (by omega)⟩, ?_⟩
  · rw [next, hrx]
  · rw [next, hrx]
    rfl
  · rw [next, hrx]
    exact toNat_pred _ (by omega)
  · unfold rxStore
    rw [bne, toNat_beq_zero s.rxBitIndex, decide_eq_true hindex]
    simp

/-- A data bit goes to its place in the shift register. -/
theorem Receives.next_data (h : Receives s b j 0) (h1 : 1 ≤ j) (h8 : j ≤ 8) (hsync : s.rxSync = b.getLsbD (j - 1))
    (hd : 0 < s.baudDiv.toNat) :
    Receives (s.next i) b (j + 1) (s.baudDiv.toNat - 1) ∧ s.rxStore = false := by
  have hcount := h.count
  have hindex := h.index
  have hle : s.rxBitIndex ≤ 8 := by
    rw [BitVec.le_def, hindex]
    exact h8
  have hpred : (s.rxBitIndex - 1).toNat = j - 1 := by rw [toNat_pred _ (by omega), hindex]
  have hrx : s.rxNext = (true, s.rxBitIndex + 1, s.baudDiv - 1,
      if s.rxSync then s.rxShift ||| 1#8 <<< (j - 1) else s.rxShift &&& ~~~(1#8 <<< (j - 1))) := by
    unfold rxNext
    dsimp only
    rw [h.busy, bne, toNat_beq_zero, decide_eq_true hcount, toNat_beq_zero, decide_eq_false (by omega), if_pos hle, hpred]
    rfl
  refine ⟨⟨?_, ?_, ?_, ?_⟩, ?_⟩
  · rw [next, hrx]
  · rw [next, hrx]
    dsimp only
    rw [BitVec.toNat_add, hindex]
    exact Nat.mod_eq_of_lt (by simp; omega)
  · rw [next, hrx]
    exact toNat_pred _ (by omega)
  · intro m hm
    rw [next, hrx]
    dsimp only
    rw [sample_bit _ _ (by omega) (by omega), hsync]
    by_cases hmj : j - 1 = m
    · rw [if_pos hmj, hmj]
    · rw [if_neg hmj, h.bits m (by omega)]
  · unfold rxStore
    rw [decide_eq_true hle]
    simp

/-- With its stop bit, the byte is stored and the receiver waits for the next one. -/
theorem Receives.next_stop (h : Receives s b 9 0) (hsync : s.rxSync = true) (hfull : s.rxFull = false) :
    (s.next i).rxBusy = false ∧ s.rxStore = true ∧ s.rxShift = b := by
  have hcount := h.count
  have hindex := h.index
  have hle : ¬ s.rxBitIndex ≤ 8 := by
    rw [BitVec.le_def, hindex]
    decide
  have hrx : s.rxNext = (false, s.rxBitIndex, s.rxBaudCount, s.rxShift) := by
    unfold rxNext
    dsimp only
    rw [h.busy, bne, toNat_beq_zero, decide_eq_true hcount, toNat_beq_zero, decide_eq_false (by omega), if_neg hle]
    rfl
  refine ⟨?_, ?_, ?_⟩
  · rw [next, hrx]
  · unfold rxStore
    rw [h.busy, toNat_beq_zero, decide_eq_true hcount, bne, toNat_beq_zero, decide_eq_false (by omega),
      decide_eq_false hle, hsync, hfull]
    rfl
  · apply BitVec.eq_of_getLsbD_eq
    intro m hm
    exact h.bits m (by omega)

end Receiver

/-! ## Both together -/

/-- How the receiver, `i` cycles before it samples bit `j`, lags behind the transmitter, which holds bit `k` for `c`
more cycles. -/
def Lag (d k c j i : Nat) : Prop :=
  (k = j ∧ i + d = c + 4 + d / 2) ∨ (k = j + 1 ∧ i + 2 * d = c + 4 + d / 2) ∨ (k + 1 = j ∧ i = c + 4 + d / 2)

section Lag

variable {d k c j i : Nat}

/-- One cycle in which neither side reaches the end of its count. -/
theorem Lag.both (h : Lag d k c j i) (hc : c ≠ 0) (hi : i ≠ 0) : Lag d k (c - 1) j (i - 1) := by
  unfold Lag at h ⊢
  omega

/-- One cycle in which the receiver samples and the bit on the line stays. -/
theorem Lag.sample (h : Lag d k c j 0) (hc : c ≠ 0) (hd : 3 ≤ d) : Lag d k (c - 1) (j + 1) (d - 1) := by
  unfold Lag at h ⊢
  omega

/-- One cycle in which the transmitter goes to the next bit and the receiver waits. -/
theorem Lag.bit (h : Lag d k 0 j i) (hi : i ≠ 0) (hd : 3 ≤ d) : Lag d (k + 1) (d - 1) j (i - 1) := by
  unfold Lag at h ⊢
  omega

/-- One cycle in which the receiver samples and the transmitter goes to the next bit. -/
theorem Lag.sample_bit (h : Lag d k 0 j 0) (hd : 3 ≤ d) : Lag d (k + 1) (d - 1) (j + 1) (d - 1) := by
  unfold Lag at h ⊢
  omega

/-- What the receiver samples is the bit it is meant to. -/
theorem Lag.rxSync {s : Uart} {b : BitVec 8} (h : Lag d k c j 0) (hs : Sends d s b k c) (hd : 3 ≤ d) :
    s.rxSync = lineBit b j := by
  have hlt := hs.count_lt
  rw [hs.rxSync]
  rcases h with ⟨hk, hc⟩ | ⟨hk, hc⟩ | ⟨hk, hc⟩
  · rw [if_pos (by omega), hk]
  · rw [if_neg (by omega), hk]
    rfl
  · omega

end Lag

/-- The bytes on their way from the transmitter's shift register to the receive FIFO, oldest first. -/
inductive Link (d : Nat) (s : Uart) : List (BitVec 8) → Prop where
  /-- The line rests and the receiver waits. -/
  | rest (hs : Rests s) (hb : s.rxBusy = false) : Link d s []
  /-- The line rests already, and the receiver is about to sample the stop bit. -/
  | last {b : BitVec 8} {i : Nat} (hs : Rests s) (hr : Receives s b 9 i) (hi : i ≤ 1) : Link d s [b]
  /-- A start bit is on the line, and the receiver has not seen it yet. -/
  | wait {b : BitVec 8} {c : Nat} (hs : Sends d s b 0 c) (hc : d ≤ c + 3) (hb : s.rxBusy = false) : Link d s [b]
  /-- A start bit is on the line, and the receiver samples the stop bit of the byte before. -/
  | overlap {b b' : BitVec 8} (hs : Sends d s b 0 (d - 1)) (hr : Receives s b' 9 0) : Link d s [b', b]
  /-- Both are in the frame of the same byte. -/
  | both {b : BitVec 8} {k c j i : Nat} (hs : Sends d s b k c) (hr : Receives s b j i) (hj : j ≤ 9) (hi : i < d)
      (hlag : Lag d k c j i) : Link d s [b]
  /-- The stop bit is still on the line, and the receiver has stored the byte. -/
  | done {b : BitVec 8} {c : Nat} (hs : Sends d s b 9 c) (hc : c + 4 + d / 2 ≤ d) (hb : s.rxBusy = false) : Link d s []

/-- The transmitter and the receiver are enabled with the divisor `d`, the receive FIFO has room, and the line is wired
back. -/
structure Wired (d : Nat) (s : Uart) (i : UartIn) : Prop where
  baud : s.baudDiv.toNat = d
  ctrl : s.uartCtrl = 0b11
  room : s.rxFull = false
  line : i.uartRx = s.uartTx

/-- The byte taken from the transmit FIFO in a cycle. -/
def taken (s : Uart) : List (BitVec 8) := if s.txPop then [s.txFifo s.txRdPtr] else []

/-- What a cycle does to the bytes on their way. -/
def LinkStep (d : Nat) (s : Uart) (i : UartIn) (l : List (BitVec 8)) : Prop :=
  ∃ l', Link d (s.next i) l' ∧ l ++ taken s = delivers s i ++ l'

section Step

variable {d : Nat} {s : Uart} {i : UartIn} (hd : 3 ≤ d) (hw : Wired d s i)

theorem delivers_none (h : s.rxStore = false) : delivers s i = [] := by
  unfold delivers
  rw [h, if_neg Bool.false_ne_true]

theorem delivers_some {b : BitVec 8} (h : s.rxStore = true) (hb : s.rxShift = b) : delivers s i = [b] := by
  unfold delivers
  rw [h, if_pos rfl, hb]

theorem taken_none (h : s.txPop = false) : taken s = [] := by
  unfold taken
  rw [h, if_neg Bool.false_ne_true]

theorem taken_some (h : s.txPop = true) : taken s = [s.txFifo s.txRdPtr] := by
  unfold taken
  rw [h, if_pos rfl]

include hd hw

/-- A link at rest stays so, or takes up a byte. -/
theorem link_rest (hs : Rests s) (hb : s.rxBusy = false) : LinkStep d s i [] := by
  obtain ⟨hbusy, hstore⟩ := next_waits i hb hs.rxSync
  by_cases hpop : s.txPop = true
  · refine ⟨_, .wait (hs.next_pop hpop hd hw.baud hw.line) (by omega) hbusy, ?_⟩
    rw [taken_some hpop, delivers_none hstore]
  · rw [Bool.not_eq_true] at hpop
    refine ⟨_, .rest (hs.next hpop hw.line) hbusy, ?_⟩
    rw [taken_none hpop, delivers_none hstore]

/-- The stop bit of the last byte is sampled while the line rests. -/
theorem link_last {b : BitVec 8} {n : Nat} (hs : Rests s) (hr : Receives s b 9 n) (hn : n ≤ 1) :
    LinkStep d s i [b] := by
  by_cases h0 : n = 0
  · subst h0
    obtain ⟨hbusy, hstore, hshift⟩ := hr.next_stop i hs.rxSync hw.room
    by_cases hpop : s.txPop = true
    · refine ⟨_, .wait (hs.next_pop hpop hd hw.baud hw.line) (by omega) hbusy, ?_⟩
      rw [taken_some hpop, delivers_some hstore hshift]
    · rw [Bool.not_eq_true] at hpop
      refine ⟨_, .rest (hs.next hpop hw.line) hbusy, ?_⟩
      rw [taken_none hpop, delivers_some hstore hshift]
  · obtain ⟨hr', hstore⟩ := hr.next_count i h0
    have hn1 : n - 1 = 0 := by omega
    rw [hn1] at hr'
    by_cases hpop : s.txPop = true
    · refine ⟨_, .overlap (hs.next_pop hpop hd hw.baud hw.line) hr', ?_⟩
      rw [taken_some hpop, delivers_none hstore]
      rfl
    · rw [Bool.not_eq_true] at hpop
      refine ⟨_, .last (hs.next hpop hw.line) hr' (Nat.zero_le 1), ?_⟩
      rw [taken_none hpop, delivers_none hstore]
      rfl

/-- A frame that has just started waits for the receiver to see it. -/
theorem link_wait {b : BitVec 8} {c : Nat} (hs : Sends d s b 0 c) (hc : d ≤ c + 3) (hb : s.rxBusy = false) :
    LinkStep d s i [b] := by
  have hlt := hs.count_lt
  by_cases hedge : c + 3 = d
  · -- the start bit has come through the flip-flops
    have hsync : s.rxSync = false := by
      rw [hs.rxSync, if_pos (by omega)]
      rfl
    have hq : s.rxSyncQ = true := by
      rw [hs.rxSyncQ, if_neg (by omega)]
      rfl
    obtain ⟨hr, hstore⟩ := next_detect i b hb (by rw [hw.ctrl]; rfl) hq hsync
    rw [hw.baud] at hr
    refine ⟨[b], ?_, by rw [taken_none hs.txPop, delivers_none hstore]; rfl⟩
    by_cases h0 : c = 0
    · subst h0
      refine .both (hs.next_bit (by omega) hd hw.baud hw.line) hr (Nat.zero_le 9) (by omega) ?_
      unfold Lag
      omega
    · refine .both (hs.next_count h0 hw.line) hr (Nat.zero_le 9) (by omega) ?_
      unfold Lag
      omega
  · have hsync : s.rxSync = true := by
      rw [hs.rxSync, if_neg (by omega)]
      rfl
    obtain ⟨hbusy, hstore⟩ := next_waits i hb hsync
    refine ⟨[b], .wait (hs.next_count (by omega) hw.line) (by omega) hbusy, ?_⟩
    rw [taken_none hs.txPop, delivers_none hstore]
    rfl

/-- The stop bit of a byte is sampled while the next frame starts. -/
theorem link_overlap {b b' : BitVec 8} (hs : Sends d s b 0 (d - 1)) (hr : Receives s b' 9 0) :
    LinkStep d s i [b', b] := by
  have hsync : s.rxSync = true := by
    rw [hs.rxSync, if_neg (by omega)]
    rfl
  obtain ⟨hbusy, hstore, hshift⟩ := hr.next_stop i hsync hw.room
  refine ⟨[b], .wait (hs.next_count (by omega) hw.line) (by omega) hbusy, ?_⟩
  rw [taken_none hs.txPop, delivers_some hstore hshift]
  rfl

/-- The end of a frame whose byte is already delivered. -/
theorem link_done {b : BitVec 8} {c : Nat} (hs : Sends d s b 9 c) (hc : c + 4 + d / 2 ≤ d) (hb : s.rxBusy = false) :
    LinkStep d s i [] := by
  have hsync : s.rxSync = true := by
    rw [hs.rxSync, if_pos (by omega), lineBit_high b (Nat.le_refl 9)]
  obtain ⟨hbusy, hstore⟩ := next_waits i hb hsync
  refine ⟨[], ?_, by rw [taken_none hs.txPop, delivers_none hstore]⟩
  by_cases h0 : c = 0
  · subst h0
    exact .rest (hs.next_rest hd hw.line) hbusy
  · exact .done (hs.next_count h0 hw.line) (by omega) hbusy

/-- A frame in the middle, with the receiver a little behind. -/
theorem link_both {b : BitVec 8} {k c j n : Nat} (hs : Sends d s b k c) (hr : Receives s b j n) (hj : j ≤ 9)
    (hn : n < d) (hlag : Lag d k c j n) : LinkStep d s i [b] := by
  have hk := hs.bit_lt
  have hlt := hs.count_lt
  by_cases hn0 : n = 0
  · subst hn0
    have hsync := hlag.rxSync hs hd
    by_cases hj9 : j = 9
    · -- the stop bit: the byte is stored
      subst hj9
      obtain ⟨hbusy, hstore, hshift⟩ := hr.next_stop i (hsync.trans (lineBit_high b (Nat.le_refl 9))) hw.room
      have hk9 : k = 9 := by
        unfold Lag at hlag
        omega
      subst hk9
      refine ⟨[], ?_, by rw [taken_none hs.txPop, delivers_some hstore hshift]⟩
      by_cases h0 : c = 0
      · subst h0
        exact .rest (hs.next_rest hd hw.line) hbusy
      · refine .done (hs.next_count h0 hw.line) ?_ hbusy
        unfold Lag at hlag
        omega
    · have hr' : Receives (s.next i) b (j + 1) (d - 1) ∧ s.rxStore = false := by
        rw [← hw.baud]
        by_cases hj0 : j = 0
        · subst hj0
          exact hr.next_start i hsync (by rw [hw.baud]; omega)
        · rw [lineBit_data b (by omega) (by omega)] at hsync
          exact hr.next_data i (by omega) (by omega) hsync (by rw [hw.baud]; omega)
      refine ⟨[b], ?_, by rw [taken_none hs.txPop, delivers_none hr'.2]; rfl⟩
      by_cases h0 : c = 0
      · subst h0
        have hk9 : k < 9 := by
          unfold Lag at hlag
          omega
        exact .both (hs.next_bit hk9 hd hw.baud hw.line) hr'.1 (by omega) (by omega) (hlag.sample_bit hd)
      · exact .both (hs.next_count h0 hw.line) hr'.1 (by omega) (by omega) (hlag.sample h0 hd)
  · obtain ⟨hr', hstore⟩ := hr.next_count i hn0
    refine ⟨[b], ?_, by rw [taken_none hs.txPop, delivers_none hstore]; rfl⟩
    by_cases h0 : c = 0
    · subst h0
      by_cases hk9 : k < 9
      · exact .both (hs.next_bit hk9 hd hw.baud hw.line) hr' hj (by omega) (hlag.bit hn0 hd)
      · have hk9' : k = 9 := by omega
        subst hk9'
        have hj9 : j = 9 := by
          unfold Lag at hlag
          omega
        subst hj9
        refine .last (hs.next_rest hd hw.line) hr' ?_
        unfold Lag at hlag
        omega
    · exact .both (hs.next_count h0 hw.line) hr' hj (by omega) (hlag.both h0 hn0)

/-- A cycle takes the bytes on their way one step further: what comes in from the transmit FIFO goes to the end, and
what the receiver stores is the oldest one. -/
theorem Link.next {l : List (BitVec 8)} (h : Link d s l) : LinkStep d s i l := by
  cases h with
  | rest hs hb => exact link_rest hd hw hs hb
  | last hs hr hn => exact link_last hd hw hs hr hn
  | wait hs hc hb => exact link_wait hd hw hs hc hb
  | overlap hs hr => exact link_overlap hd hw hs hr
  | both hs hr hj hn hlag => exact link_both hd hw hs hr hj hn hlag
  | done hs hc hb => exact link_done hd hw hs hc hb

end Step

end Uart

end SocRV
