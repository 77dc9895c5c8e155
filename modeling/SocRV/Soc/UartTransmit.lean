import SocRV.Soc.UartReceive

/-!
# The transmit path of the UART

The transmit FIFO in every run, and the line.  A write of `TXDATA` waits while the FIFO is full; as long as the
transmitter is enabled it makes room after a byte at most.
-/

namespace SocRV

namespace Uart

/-! ## The FIFO -/

/-- The transmit FIFO is full with four bytes. -/
theorem txFull_iff {s : Uart} : s.txFull = true ↔ s.txCount.toNat = 4 := by
  unfold txFull
  rw [beq_iff_eq, ← BitVec.toNat_inj]
  rfl

/-! ## A request that has to wait -/

section Wait

variable {s : Uart} {i : UartIn}

/-- Only a write of `TXDATA` waits, while the FIFO is full. -/
theorem reqReady_eq_false : s.reqReady i = false ↔
    (i.reqValid && i.reqWrite && register i == 0x00) = true ∧ s.txFull = true := by
  unfold reqReady
  rw [Bool.not_eq_false', Bool.and_eq_true]

/-- A full FIFO takes nothing. -/
theorem txPush_of_full (h : s.txFull = true) : s.txPush i = false := by
  unfold txPush reqReady
  rw [h]
  cases i.reqValid <;> cases i.reqWrite <;> cases register i == 0x00 <;> rfl

/-- No register changes its value by an access that is not a write to it. -/
theorem configWrite_of_waiting {r : BitVec 6} (h : s.reqReady i = false) : s.configWrite i r = false := by
  unfold configWrite
  rw [h, Bool.and_false]
  rfl

theorem next_uartCtrl : (s.next i).uartCtrl =
    if s.configWrite i 0x04 && i.reqWstrb.getLsbD 0 then i.reqWdata.setWidth 2 else s.uartCtrl := rfl

/-- A full FIFO stays full until a byte is taken. -/
theorem next_txFull (h : s.txFull = true) : (s.next i).txFull = !s.txPop := by
  have h4 : s.txCount = 4 := by
    unfold txFull at h
    rwa [beq_iff_eq] at h
  unfold txFull Uart.next
  rw [txPush_of_full h, h4]
  cases s.txPop <;> rfl

/-- A full FIFO behind an enabled transmitter: a byte is taken as soon as the line is free. -/
theorem txPop_of_full (h : s.txFull = true) (hctrl : s.uartCtrl.getLsbD 0 = true) :
    s.txPop = decide (s.txBitsLeft.toNat = 0) := by
  have hempty : s.txEmpty = false := by
    unfold txFull at h
    rw [beq_iff_eq] at h
    unfold txEmpty
    rw [h]
    rfl
  unfold txPop
  rw [hctrl, hempty, toNat_beq_zero, Bool.true_and, Bool.not_false, Bool.and_true]

/-- The cycles at most until the line is free. -/
def lineRank (s : Uart) : Nat := s.txBitsLeft.toNat * 2 ^ 32 + s.txBaudCount.toNat

/-- The cycles at most until there is room in the FIFO. -/
def waitRank (s : Uart) : Nat := if s.txFull then lineRank s + 1 else 0

/-- While a byte is shifted out, the line comes closer to being free. -/
theorem lineRank_next (hpop : s.txPop = false) (hleft : s.txBitsLeft.toNat ≠ 0) :
    lineRank (s.next i) < lineRank s := by
  have hnext : (s.next i).txBitsLeft = s.txNext.2.1 ∧ (s.next i).txBaudCount = s.txNext.2.2 := ⟨rfl, rfl⟩
  unfold lineRank
  rw [hnext.1, hnext.2]
  unfold txNext
  rw [hpop, if_neg Bool.false_ne_true, bne, toNat_beq_zero, decide_eq_false hleft, Bool.not_false, if_pos rfl]
  by_cases hcount : s.txBaudCount.toNat = 0
  · rw [toNat_beq_zero, decide_eq_true hcount, if_pos rfl]
    have hlt := (s.baudDiv - 1).isLt
    show (s.txBitsLeft - 1).toNat * 2 ^ 32 + (s.baudDiv - 1).toNat < _
    rw [toNat_pred _ hleft]
    omega
  · rw [toNat_beq_zero, decide_eq_false hcount, if_neg Bool.false_ne_true]
    show s.txBitsLeft.toNat * 2 ^ 32 + (s.txBaudCount - 1).toNat < _
    rw [toNat_pred _ hcount]
    omega

variable (s i) in
/-- The states from `s` on while the request of `i` is held, with the levels `l` on the line. -/
def holding (l : Nat → Bool) : Nat → Uart
  | 0 => s
  | k + 1 => (holding l k).next { i with uartRx := l k }

/-- A held request does not wait forever: a byte is taken as soon as the line is free. -/
theorem holding_ready (hctrl : s.uartCtrl.getLsbD 0 = true) (l : Nat → Bool) :
    ∃ k, (holding s i l k).reqReady i = true := by
  have hstep : ∀ n ≥ 0, (holding s i l n).uartCtrl.getLsbD 0 = true → (holding s i l n).reqReady i = true ∨
      ((holding s i l (n + 1)).uartCtrl.getLsbD 0 = true ∧
        waitRank (holding s i l (n + 1)) < waitRank (holding s i l n)) := by
    intro n _ hn
    cases hready : (holding s i l n).reqReady i with
    | true => exact Or.inl rfl
    | false =>
      have hfull := (reqReady_eq_false.mp hready).2
      have hwait : (holding s i l n).configWrite { i with uartRx := l n } 0x04 = false :=
        configWrite_of_waiting hready
      have hpop := txPop_of_full hfull hn
      refine Or.inr ⟨?_, ?_⟩
      · show ((holding s i l n).next { i with uartRx := l n }).uartCtrl.getLsbD 0 = true
        rw [next_uartCtrl, hwait, Bool.false_and, if_neg Bool.false_ne_true]
        exact hn
      · show waitRank ((holding s i l n).next { i with uartRx := l n }) < _
        unfold waitRank
        rw [next_txFull hfull, hfull, if_pos rfl]
        by_cases hleft : (holding s i l n).txBitsLeft.toNat = 0
        · rw [hpop, decide_eq_true hleft, Bool.not_true, if_neg Bool.false_ne_true]
          exact Nat.succ_pos _
        · rw [decide_eq_false hleft] at hpop
          rw [hpop, Bool.not_false, if_pos rfl]
          exact Nat.succ_lt_succ (lineRank_next hpop hleft)
  obtain ⟨k, -, hk⟩ := Machine.eventually_of_rank (P := fun t : Uart => t.reqReady i = true)
    (I := fun t : Uart => t.uartCtrl.getLsbD 0 = true) (k := 0) hctrl hstep
  exact ⟨k, hk⟩

/-- A write of `TXDATA` to a full FIFO behind a disabled transmitter waits forever. -/
theorem holding_stuck (hready : s.reqReady i = false) (hctrl : s.uartCtrl.getLsbD 0 = false) (l : Nat → Bool)
    (k : Nat) : (holding s i l k).reqReady i = false ∧ (holding s i l k).uartCtrl.getLsbD 0 = false := by
  induction k with
  | zero => exact ⟨hready, hctrl⟩
  | succ k ih =>
    obtain ⟨hwait, hoff⟩ := ih
    obtain ⟨hwrite, hfull⟩ := reqReady_eq_false.mp hwait
    have hconfig : (holding s i l k).configWrite { i with uartRx := l k } 0x04 = false := configWrite_of_waiting hwait
    have hpop : (holding s i l k).txPop = false := by
      unfold txPop
      rw [hoff, Bool.false_and, Bool.false_and]
    refine ⟨reqReady_eq_false.mpr ⟨hwrite, ?_⟩, ?_⟩
    · show ((holding s i l k).next { i with uartRx := l k }).txFull = true
      rw [next_txFull hfull, hpop]
      rfl
    · show ((holding s i l k).next { i with uartRx := l k }).uartCtrl.getLsbD 0 = false
      rw [next_uartCtrl, hconfig, Bool.false_and, if_neg Bool.false_ne_true]
      exact hoff

end Wait

/-! ## Runs -/

/-- The entries of the transmit FIFO, oldest first. -/
def txContents (s : Uart) : List (BitVec 8) :=
  (List.range s.txCount.toNat).map fun n => s.txFifo (s.txRdPtr + BitVec.ofNat 2 n)

/-- The entries of the FIFO are the list. -/
theorem Queue.contents {s : Uart} {q : List (BitVec 8)} (h : Queue s q) : s.txContents = q := by
  unfold txContents
  rw [h.count]
  refine List.ext_getElem (by simp) fun n hn hn' => ?_
  rw [List.getElem_map, List.getElem_range, h.spans.get n hn']

variable (clockHz baud : Nat) (D : BitVec 32) (w : Nat → UartIn) (n₀ : Nat)

/-- The bytes accepted by the writes of `TXDATA` in a run, and those whose frame has begun. -/
def written (n : Nat) : List (BitVec 8) := (machine clockHz baud).events accepts w n

@[inherit_doc written]
def begun (n : Nat) : List (BitVec 8) := (machine clockHz baud).events (fun s _ => taken s) w n

/-- What was accepted is what has begun and, behind it, the FIFO. -/
theorem written_run (n : Nat) : ∃ q, Queue ((machine clockHz baud).run w n) q ∧
    written clockHz baud w n = begun clockHz baud w n ++ q := by
  induction n with
  | zero => exact ⟨[], ⟨Ring.Spans.empty _ _, rfl⟩, rfl⟩
  | succ n ih =>
    obtain ⟨q, hq, hsplit⟩ := ih
    obtain ⟨q', hq', hstep⟩ := hq.next (w n)
    refine ⟨q', hq', ?_⟩
    calc written clockHz baud w n ++ accepts ((machine clockHz baud).run w n) (w n)
        = begun clockHz baud w n ++ (q ++ accepts ((machine clockHz baud).run w n) (w n)) := by
          rw [hsplit, List.append_assoc]
      _ = begun clockHz baud w n ++ taken ((machine clockHz baud).run w n) ++ q' := by
          rw [hstep, List.append_assoc]

/-- The divisor after reset is at least 2. -/
theorem two_le_resetDiv {clockHz baud : Nat} (h : clockHz < 2 ^ 32) : 2 ≤ (resetDiv clockHz baud).toNat := by
  have hdiv : clockHz / baud ≤ clockHz := Nat.div_le_self _ _
  unfold resetDiv
  rw [BitVec.toNat_ofNat, Nat.mod_eq_of_lt]
  · split <;> omega
  · split <;> omega

/-- The divisor is at least 2 in every state. -/
theorem two_le_baudDiv (h : clockHz < 2 ^ 32) (n : Nat) : 2 ≤ ((machine clockHz baud).run w n).baudDiv.toNat := by
  induction n with
  | zero => exact two_le_resetDiv h
  | succ n ih =>
    show 2 ≤ (if _ then (w n).reqWdata else ((machine clockHz baud).run w n).baudDiv).toNat
    split
    · rename_i hwrite
      rw [Bool.and_eq_true, decide_eq_true_eq] at hwrite
      exact hwrite.2
    · exact ih

/-- From cycle `n₀` on the transmitter is enabled with the divisor `D`, and it starts with nothing to send. -/
structure Transmits : Prop where
  idle : ((machine clockHz baud).run w n₀).txIdle = true
  baudDiv : ∀ n ≥ n₀, ((machine clockHz baud).run w n).baudDiv = D
  enabled : ∀ n ≥ n₀, ((machine clockHz baud).run w n).uartCtrl.getLsbD 0 = true

/-- From cycle `n₀` on the divisor is `D`, and the line starts free. -/
structure Paced : Prop where
  lineFree : ((machine clockHz baud).run w n₀).txBitsLeft.toNat = 0
  baudDiv : ∀ n ≥ n₀, ((machine clockHz baud).run w n).baudDiv = D

variable {clockHz baud D w n₀}

/-- A transmitter with nothing to send starts with its line free. -/
theorem Transmits.paced (h : Transmits clockHz baud D w n₀) : Paced clockHz baud D w n₀ := by
  refine ⟨?_, h.baudDiv⟩
  have hidle := h.idle
  unfold txIdle at hidle
  rw [Bool.and_eq_true, toNat_beq_zero ((machine clockHz baud).run w n₀).txBitsLeft, decide_eq_true_eq] at hidle
  exact hidle.2

section Frame

variable (h : Paced clockHz baud D w n₀) (hD : 0 < D.toNat)

include h hD

/-- A byte that is taken is on the line from the next cycle on, for the ten bits of its frame. -/
theorem Paced.shifts {n : Nat} (hn : n₀ ≤ n) {b : BitVec 8} (hb : taken ((machine clockHz baud).run w n) = [b])
    {k x : Nat} (hk : k < 10) (hx : x < D.toNat) :
    Shifts D.toNat ((machine clockHz baud).run w (n + 1 + (k * D.toNat + x))) b k (D.toNat - 1 - x) := by
  have hbaud : ∀ m, n₀ ≤ m → ((machine clockHz baud).run w m).baudDiv.toNat = D.toNat := by
    intro m hm
    rw [h.baudDiv m hm]
  have hwithin : ∀ {k y : Nat}, Shifts D.toNat ((machine clockHz baud).run w (n + 1 + (k * D.toNat + 0))) b k
      (D.toNat - 1) → y < D.toNat →
      Shifts D.toNat ((machine clockHz baud).run w (n + 1 + (k * D.toNat + y))) b k (D.toNat - 1 - y) := by
    intro k y hfirst hy
    induction y with
    | zero => exact hfirst
    | succ y ih =>
      have hstep := (ih (Nat.lt_of_succ_lt hy)).next_count (w (n + 1 + (k * D.toNat + y))) (by omega)
      rwa [show D.toNat - 1 - y - 1 = D.toNat - 1 - (y + 1) by omega] at hstep
  have hfirst : Shifts D.toNat ((machine clockHz baud).run w (n + 1 + (k * D.toNat + 0))) b k (D.toNat - 1) := by
    clear hx
    induction k with
    | zero =>
      have hpop : ((machine clockHz baud).run w n).txPop = true := by
        unfold taken at hb
        by_contra hne
        rw [if_neg hne] at hb
        exact absurd hb (List.cons_ne_nil _ _).symm
      have hhead := shifts_of_pop (w n) hpop hD (hbaud n hn)
      unfold taken at hb
      rw [if_pos hpop] at hb
      rw [List.head_eq_of_cons_eq hb] at hhead
      rw [Nat.zero_mul]
      exact hhead
    | succ k ih =>
      have hlast := hwithin (y := D.toNat - 1) (ih (Nat.lt_of_succ_lt hk)) (Nat.sub_lt hD Nat.one_pos)
      rw [Nat.sub_self] at hlast
      have hstep := hlast.next_bit (w (n + 1 + (k * D.toNat + (D.toNat - 1)))) (Nat.lt_of_succ_lt_succ hk) hD
        (hbaud _ (by omega))
      have hidx : n + 1 + ((k + 1) * D.toNat + 0) = n + 1 + (k * D.toNat + (D.toNat - 1)) + 1 := by
        rw [Nat.succ_mul]
        omega
      rw [hidx]
      exact hstep
  exact hwithin hfirst hx

/-- The frame in the cycles counted from its start. -/
theorem Paced.frame {n : Nat} (hn : n₀ ≤ n) {b : BitVec 8} (hb : taken ((machine clockHz baud).run w n) = [b])
    {c : Nat} (hc : c < 10 * D.toNat) :
    Shifts D.toNat ((machine clockHz baud).run w (n + 1 + c)) b (c / D.toNat) (D.toNat - 1 - c % D.toNat) := by
  have hk : c / D.toNat < 10 := Nat.div_lt_of_lt_mul (by rwa [Nat.mul_comm])
  have hshifts := h.shifts hD hn hb hk (Nat.mod_lt c hD)
  rwa [Nat.mul_comm, Nat.div_add_mod] at hshifts

/-- Behind the frame the line is free. -/
theorem Paced.free {n : Nat} (hn : n₀ ≤ n) {b : BitVec 8} (hb : taken ((machine clockHz baud).run w n) = [b]) :
    ((machine clockHz baud).run w (n + 1 + 10 * D.toNat)).txBitsLeft.toNat = 0 := by
  have hlast := h.shifts hD hn hb (k := 9) (x := D.toNat - 1) (by omega) (Nat.sub_lt hD Nat.one_pos)
  rw [Nat.sub_self] at hlast
  rw [show n + 1 + 10 * D.toNat = n + 1 + (9 * D.toNat + (D.toNat - 1)) + 1 by omega]
  exact hlast.next_free _

/-- The line is busy only within a frame. -/
theorem Paced.within {n : Nat} (hn : n₀ ≤ n)
    (hbusy : ((machine clockHz baud).run w n).txBitsLeft.toNat ≠ 0) :
    ∃ m, n₀ ≤ m ∧ m < n ∧ n ≤ m + 10 * D.toNat ∧ ((machine clockHz baud).run w m).txPop = true := by
  induction n, hn using Nat.le_induction with
  | base => exact absurd h.lineFree hbusy
  | succ n hn ih =>
    by_cases hpop : ((machine clockHz baud).run w n).txPop = true
    · exact ⟨n, hn, Nat.lt_succ_self n, by omega, hpop⟩
    · rw [Bool.not_eq_true] at hpop
      have hbusy' : ((machine clockHz baud).run w n).txBitsLeft.toNat ≠ 0 :=
        fun hfree => hbusy (free_next (w n) hfree hpop)
      obtain ⟨m, hm, hmn, hle, hmpop⟩ := ih hbusy'
      refine ⟨m, hm, Nat.lt_succ_of_lt hmn, ?_, hmpop⟩
      by_contra hgt
      have hend : n + 1 = m + 1 + 10 * D.toNat := by omega
      rw [hend] at hbusy
      exact hbusy (h.free hD hm (taken_some hmpop))

omit h hD in
/-- An entry stays in the FIFO until a byte is taken. -/
theorem txCount_pos {n m : Nat} (hnm : n ≤ m) (hpos : 0 < ((machine clockHz baud).run w n).txCount.toNat)
    (hpop : ∀ k, n ≤ k → k < m → ((machine clockHz baud).run w k).txPop = false) :
    0 < ((machine clockHz baud).run w m).txCount.toNat := by
  induction m, hnm using Nat.le_induction with
  | base => exact hpos
  | succ m hnm ih =>
    have hm := ih fun k hk hkm => hpop k hk (Nat.lt_succ_of_lt hkm)
    have hpopm := hpop m hnm (Nat.lt_succ_self m)
    obtain ⟨q, hq, -⟩ := written_run clockHz baud w m
    have hcount := hq.count_next (w m) (hq.room (w m)) fun ht => absurd (hpopm.symm.trans ht) Bool.false_ne_true
    rw [hpopm, if_neg Bool.false_ne_true, Nat.add_zero, ← hq.count] at hcount
    show 0 < (Uart.count ((machine clockHz baud).run w m).txCount (((machine clockHz baud).run w m).txPush (w m))
      ((machine clockHz baud).run w m).txPop).toNat
    rw [hpopm]
    omega

end Frame

/-- A byte in the FIFO does not wait longer than a frame for the next byte to be taken. -/
theorem Transmits.progress (h : Transmits clockHz baud D w n₀) (hD : 0 < D.toNat) {n : Nat} (hn : n₀ ≤ n)
    (hpos : 0 < ((machine clockHz baud).run w n).txCount.toNat) :
    ∃ m ≥ n, m ≤ n + 10 * D.toNat ∧ ((machine clockHz baud).run w m).txPop = true := by
  have htake : ∀ m, n₀ ≤ m → 0 < ((machine clockHz baud).run w m).txCount.toNat →
      ((machine clockHz baud).run w m).txBitsLeft.toNat = 0 → ((machine clockHz baud).run w m).txPop = true := by
    intro m hm hcount hleft
    unfold txPop txEmpty
    rw [h.enabled m hm, toNat_beq_zero, decide_eq_true hleft, toNat_beq_zero, decide_eq_false (Nat.pos_iff_ne_zero.mp hcount)]
    rfl
  by_cases hleft : ((machine clockHz baud).run w n).txBitsLeft.toNat = 0
  · exact ⟨n, Nat.le_refl n, Nat.le_add_right _ _, htake n hn hpos hleft⟩
  · obtain ⟨m, hm, hmn, hle, hmpop⟩ := h.paced.within hD hn hleft
    have hend : n ≤ m + 1 + 10 * D.toNat := by omega
    refine ⟨m + 1 + 10 * D.toNat, hend, by omega, ?_⟩
    refine htake _ (by omega) (txCount_pos hend hpos fun k hk hklt => ?_) (h.paced.free hD hm (taken_some hmpop))
    obtain ⟨c, rfl⟩ := Nat.exists_eq_add_of_le (show m + 1 ≤ k by omega)
    exact (h.paced.frame hD hm (taken_some hmpop) (by omega)).txPop

end Uart

end SocRV
