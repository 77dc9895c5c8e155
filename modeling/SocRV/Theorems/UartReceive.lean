import SocRV.Soc.UartListen

/-!
# The receive FIFO and the receive interrupt

In every run, whatever comes on the line and whatever is written to the registers, the receive FIFO holds the received
bytes in order until they are read.  A sender may have a bit period of its own, within the bounds in which all ten samples
lie in their bits.  The interrupt flag can miss a byte: a write that clears it in the cycle of the push wins over the push.
-/

namespace SocRV

/-! ## The FIFO -/

/-- What the receive path keeps to in the run on `w`. -/
structure Uart.ReceivePath (clockHz baud : Nat) (w : Nat → UartIn) : Prop where
  /-- The count is the number of pushes less the number of pops, at most 4, and the distance of the pointers. -/
  count : ∀ n, ((machine clockHz baud).run w n).rxCount.toNat + pops clockHz baud w n = pushes clockHz baud w n
  le_four : ∀ n, ((machine clockHz baud).run w n).rxCount.toNat ≤ 4
  pointers : ∀ n, ((machine clockHz baud).run w n).rxCount.toNat % 4 =
    (((machine clockHz baud).run w n).rxWrPtr - ((machine clockHz baud).run w n).rxRdPtr).toNat
  /-- What was stored is what was read and, behind it, the entries of the FIFO. -/
  entries : ∀ n, stored clockHz baud w n = readOut clockHz baud w n ++ ((machine clockHz baud).run w n).rxContents
  /-- An entry is written exactly when the count takes a push, and the count goes up when nothing is read besides. -/
  push : ∀ n, ((machine clockHz baud).run w n).rxPush = ((machine clockHz baud).run w n).rxStore
  increment : ∀ n, ((machine clockHz baud).run w (n + 1)).rxCount = ((machine clockHz baud).run w n).rxCount + 1 ↔
    ((machine clockHz baud).run w n).rxStore = true ∧ ((machine clockHz baud).run w n).rxPop (w n) = false
  /-- A byte is stored at the stop bit of its frame, which is high. -/
  frame : ∀ n, ((machine clockHz baud).run w n).rxStore = true →
    (∃ c, Sampled ((machine clockHz baud).run w) c 9 n ((machine clockHz baud).run w n).rxShift) ∧
      ((machine clockHz baud).run w n).Samples 9 ∧ ((machine clockHz baud).run w n).rxSync = true
  /-- A frame that ends while the FIFO is full, or with a low stop bit, changes nothing stored. -/
  drop : ∀ n, ((machine clockHz baud).run w n).Samples 9 →
    ((machine clockHz baud).run w n).rxFull = true ∨ ((machine clockHz baud).run w n).rxSync = false →
      ((machine clockHz baud).run w n).rxStore = false ∧
      ((machine clockHz baud).run w (n + 1)).rxFifo = ((machine clockHz baud).run w n).rxFifo ∧
      ((machine clockHz baud).run w (n + 1)).rxWrPtr = ((machine clockHz baud).run w n).rxWrPtr ∧
      ((machine clockHz baud).run w n).rxContents =
        Uart.reads ((machine clockHz baud).run w n) (w n) ++ ((machine clockHz baud).run w (n + 1)).rxContents

namespace Uart

variable {s : Uart} {q : List (BitVec 8)}

/-- The pointers are as far apart as the FIFO is long. -/
theorem RxQueue.pointers (h : RxQueue s q) : s.rxCount.toNat % 4 = (s.rxWrPtr - s.rxRdPtr).toNat := by
  rw [h.spans.wr_eq, BitVec.add_comm, BitVec.add_sub_cancel, BitVec.toNat_ofNat, h.count]

/-- The count goes up when an entry is written and none is read. -/
theorem RxQueue.increment (h : RxQueue s q) (i : UartIn) :
    (s.next i).rxCount = s.rxCount + 1 ↔ s.rxStore = true ∧ s.rxPop i = false := by
  have hcount := h.count_next i
  have hle := h.le
  rw [← h.count] at hle
  have hval : (s.rxCount + 1).toNat = s.rxCount.toNat + 1 := by
    rw [BitVec.toNat_add]
    exact Nat.mod_eq_of_lt (Nat.lt_of_le_of_lt (Nat.succ_le_succ hle) (by decide))
  rw [← BitVec.toNat_inj, hval]
  cases hstore : s.rxStore <;> cases hpop : s.rxPop i <;> rw [hstore, hpop] at hcount
  · simp only [Bool.false_eq_true, if_false, Nat.add_zero] at hcount
    simp [hcount]
  · simp only [Bool.false_eq_true, if_false, if_true, Nat.add_zero] at hcount
    constructor
    · omega
    · exact fun h => absurd h.1 Bool.false_ne_true
  · simp only [Bool.false_eq_true, if_false, if_true, Nat.add_zero] at hcount
    exact ⟨fun _ => ⟨rfl, rfl⟩, fun _ => hcount⟩
  · simp only [if_true] at hcount
    constructor
    · omega
    · exact fun h => absurd h.2 (Bool.false_ne_true ∘ Eq.symm)

/-- A frame that ends without being stored leaves the FIFO to the reads. -/
theorem RxQueue.drop (h : RxQueue s q) (i : UartIn) (hlost : s.rxFull = true ∨ s.rxSync = false) :
    s.rxStore = false ∧ (s.next i).rxFifo = s.rxFifo ∧ (s.next i).rxWrPtr = s.rxWrPtr ∧
      s.rxContents = reads s i ++ (s.next i).rxContents := by
  have hstore : s.rxStore = false := by
    rw [← Bool.not_eq_true, rxStore_iff h.index]
    rintro ⟨-, hhigh, hroom⟩
    rcases hlost with hfull | hlow
    · exact Bool.false_ne_true (hroom.symm.trans hfull)
    · exact Bool.false_ne_true (hlow.symm.trans hhigh)
  obtain ⟨q', hq', hsplit⟩ := h.next i
  rw [delivers_none hstore, List.append_nil] at hsplit
  refine ⟨hstore, ?_, ?_, by rw [h.contents, hq'.contents, hsplit]⟩
  · unfold Uart.next
    rw [hstore]
    rfl
  · unfold Uart.next
    rw [hstore]
    rfl

end Uart

/-- The receive path never loses or corrupts what is stored. -/
theorem uart_receive_path (clockHz baud : Nat) (w : Nat → UartIn) : Uart.ReceivePath clockHz baud w := by
  have hqueue := Uart.rxQueue_run clockHz baud w
  refine ⟨Uart.rxCount_run clockHz baud w, fun n => ?_, fun n => ?_, fun n => ?_, fun n => ?_, fun n => ?_, fun n hn => ?_,
    fun n hsample hlost => ?_⟩
  · obtain ⟨q, hq, -⟩ := hqueue n
    rw [hq.count]
    exact hq.le
  · obtain ⟨q, hq, -⟩ := hqueue n
    exact hq.pointers
  · obtain ⟨q, hq, hsplit⟩ := hqueue n
    rw [hq.contents]
    exact hsplit
  · obtain ⟨q, hq, -⟩ := hqueue n
    exact Uart.rxPush_eq_rxStore hq.index
  · obtain ⟨q, hq, -⟩ := hqueue n
    exact hq.increment (w n)
  · obtain ⟨q, hq, -⟩ := hqueue n
    obtain ⟨hsample, hsync, -⟩ := (Uart.rxStore_iff hq.index).mp hn
    have hframe := Uart.sampled_run clockHz baud w n hsample.1
    rw [hsample.2.2] at hframe
    exact ⟨hframe, hsample, hsync⟩
  · obtain ⟨q, hq, -⟩ := hqueue n
    exact hq.drop (w n) hlost

/-- Two frames of ones at the divisor 2; a read takes the first byte in the cycle in which the second one is stored. -/
def readAtPush (n : Nat) : UartIn :=
  { uartRx := !decide (n < 3) && !decide (30 ≤ n ∧ n < 33), reqValid := n == 52, reqAddr := 0x004 }

/-- An entry written in the cycle of a read leaves the count as it is. -/
theorem uart_count_stays : ¬ ∀ clockHz baud w n,
    ((Uart.machine clockHz baud).run w (n + 1)).rxCount = ((Uart.machine clockHz baud).run w n).rxCount + 1 ↔
      ((Uart.machine clockHz baud).run w n).rxStore = true := by
  intro h
  exact absurd (h 2 1 readAtPush 52) (by decide +kernel)

/-! ## The tolerance -/

/-- The bytes of `fs`, sent at `P` cycles a bit, are received in order, each of them when its frame is over. -/
structure Uart.Hears (clockHz baud P : Nat) (w : Nat → UartIn) (n₀ M : Nat) (fs : List (Nat × BitVec 8)) : Prop where
  ordered : ∀ m ≤ M, heard clockHz baud w n₀ m <+: serialBytes fs
  complete : ∀ m ≤ M, ∀ fs', fs' <+: fs → 2 + (serialLine P fs').length ≤ m →
    serialBytes fs' <+: heard clockHz baud w n₀ m
  all : ∀ m ≤ M, 2 + (serialLine P fs).length ≤ m → heard clockHz baud w n₀ m = serialBytes fs

/-- A receiver with a divisor of at least 3 hears a sender whose period it tolerates. -/
theorem uart_tolerance (clockHz baud : Nat) (D : BitVec 32) (P : Nat) (w : Nat → UartIn) (n₀ M : Nat)
    (fs : List (Nat × BitVec 8)) (hD : 3 ≤ D.toNat) (htol : Uart.Tolerates D P)
    (h : Uart.Listens clockHz baud D P w n₀ M fs) : Uart.Hears clockHz baud P w n₀ M fs := by
  have hawaits : Uart.Awaits clockHz baud D P w M n₀ 2 fs := ⟨h.sees, h.waits⟩
  refine ⟨fun m hm => (hawaits.hears hD htol hm).1, fun m hm => (hawaits.hears hD htol hm).2, fun m hm hlen => ?_⟩
  obtain ⟨hfirst, hall⟩ := hawaits.hears hD htol hm
  exact hfirst.eq_of_length_le (hall fs (List.prefix_refl fs) hlen).length_le

/-- A byte sent behind a gap of one cycle, at three cycles a bit. -/
def sendAtThree (n : Nat) : UartIn := { uartRx := (serialLine 3 [(1, 0x5a)]).getD n true }

theorem uart_tolerance_three :
    3 ≤ (3 : BitVec 32).toNat ∧ Uart.Tolerates 3 3 ∧ Uart.Hears 3 1 3 sendAtThree 0 40 [(1, 0x5a)] :=
  ⟨by decide, ⟨by decide, by decide, by decide⟩,
    uart_tolerance 3 1 3 3 sendAtThree 0 40 [(1, 0x5a)] (by decide) ⟨by decide, by decide, by decide⟩
      ⟨rfl, rfl, rfl, rfl, fun c => by rw [Nat.zero_add]; rfl, by decide +kernel, by decide +kernel, by decide +kernel⟩⟩

/-! ## The interrupt -/

/-- The interrupt flag tells of every byte pushed in the run on `w`: it is set after the push, and cleared only by an
acknowledge that comes later. -/
structure Uart.InterruptKept (clockHz baud : Nat) (w : Nat → UartIn) : Prop where
  pending : ∀ n, ((machine clockHz baud).run w n).rxPush = true →
    ((machine clockHz baud).run w (n + 1)).irqPending = true
  acknowledged : ∀ m n, m < n → ((machine clockHz baud).run w m).rxPush = true →
    ((machine clockHz baud).run w n).irqPending = false →
    ∃ a, m < a ∧ a < n ∧ Uart.acknowledges ((machine clockHz baud).run w a) (w a) = true

/-- An acknowledge clears the flag, also in the cycle of a push. -/
theorem Uart.next_irqPending (s : Uart) (i : UartIn) :
    (s.next i).irqPending = if s.acknowledges i then false else s.rxPush || s.irqPending := rfl

/-- The interrupt is kept exactly in the runs that acknowledge in no cycle of a push. -/
theorem uart_interrupt_kept_iff (clockHz baud : Nat) (w : Nat → UartIn) :
    Uart.InterruptKept clockHz baud w ↔ ∀ n, ((Uart.machine clockHz baud).run w n).rxPush = true →
      Uart.acknowledges ((Uart.machine clockHz baud).run w n) (w n) = false := by
  have hnext : ∀ n, ((Uart.machine clockHz baud).run w (n + 1)).irqPending =
      if Uart.acknowledges ((Uart.machine clockHz baud).run w n) (w n) then false
      else ((Uart.machine clockHz baud).run w n).rxPush || ((Uart.machine clockHz baud).run w n).irqPending :=
    fun n => Uart.next_irqPending _ _
  constructor
  · intro h n hpush
    have hpending := h.pending n hpush
    by_contra hack
    rw [Bool.not_eq_false] at hack
    rw [hnext, if_pos hack] at hpending
    exact Bool.false_ne_true hpending
  · intro h
    have hset : ∀ n, ((Uart.machine clockHz baud).run w n).rxPush = true →
        ((Uart.machine clockHz baud).run w (n + 1)).irqPending = true := by
      intro n hpush
      rw [hnext, h n hpush, if_neg Bool.false_ne_true, hpush, Bool.true_or]
    refine ⟨hset, fun m n hmn hpush hclear => ?_⟩
    induction n, hmn using Nat.le_induction with
    | base => exact absurd (hclear.symm.trans (hset m hpush)) Bool.false_ne_true
    | succ n hmn ih =>
      cases hack : Uart.acknowledges ((Uart.machine clockHz baud).run w n) (w n) with
      | true => exact ⟨n, hmn, Nat.lt_succ_self n, hack⟩
      | false =>
        -- nothing cleared the flag in this cycle, so it was low before
        rw [hnext, hack, if_neg Bool.false_ne_true, Bool.or_eq_false_iff] at hclear
        obtain ⟨a, hma, han, ha⟩ := ih hclear.2
        exact ⟨a, hma, Nat.lt_succ_of_lt han, ha⟩

/-- One frame of ones at the divisor 2; the interrupt status is written in the cycle of the push. -/
def acknowledgeAtPush (n : Nat) : UartIn :=
  { uartRx := !decide (n < 3), reqValid := n == 22, reqWrite := true, reqAddr := 0x014, reqWdata := 1, reqWstrb := 0xf }

/-- A byte is pushed, and the interrupt is not pending in the next cycle. -/
theorem uart_interrupt_lost : ¬ ∀ clockHz baud w n, ((Uart.machine clockHz baud).run w n).rxPush = true →
    ((Uart.machine clockHz baud).run w (n + 1)).irqPending = true := by
  intro h
  exact absurd (h 2 1 acknowledgeAtPush 22 (by decide +kernel)) (by decide +kernel)

end SocRV
