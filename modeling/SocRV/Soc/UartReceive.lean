import SocRV.Soc.UartFifo

/-!
# The receive path of the UART

What the receiver stores, in every run: the line, the register accesses, the enable bits and the divisor are free.  The
push condition stands in the source twice, once for the count and the interrupt and once for the memory and the write
pointer; both agree because the bit index never passes 9.
-/

namespace SocRV

namespace Uart

/-- The UART with a free line. -/
def machine (clockHz baud : Nat) : Machine Uart UartIn where
  reset := reset clockHz baud
  next s i := s.next i

/-- The byte that a read of `RXDATA` takes in a cycle. -/
def reads (s : Uart) (i : UartIn) : List (BitVec 8) := if s.rxPop i then [(s.reqRdata i).setWidth 8] else []

/-- The entries of the receive FIFO, oldest first. -/
def rxContents (s : Uart) : List (BitVec 8) :=
  (List.range s.rxCount.toNat).map fun n => s.rxFifo (s.rxRdPtr + BitVec.ofNat 2 n)

/-- A write of 1 to the interrupt status register is performed. -/
def acknowledges (s : Uart) (i : UartIn) : Bool :=
  s.configWrite i 0x05 && i.reqWstrb.getLsbD 0 && i.reqWdata.getLsbD 0

/-- Bit `j` of a frame is sampled in a cycle: 0 is the start bit, 9 the stop bit. -/
def Samples (s : Uart) (j : Nat) : Prop := s.rxBusy = true ∧ s.rxBaudCount = 0 ∧ s.rxBitIndex.toNat = j

instance (s : Uart) (j : Nat) : Decidable (s.Samples j) := instDecidableAnd

/-- The receive FIFO holds the list `q`, and the bit index is in range. -/
structure RxQueue (s : Uart) (q : List (BitVec 8)) : Prop where
  spans : Ring.Spans s.rxFifo s.rxRdPtr s.rxWrPtr q
  count : s.rxCount.toNat = q.length
  index : s.rxBitIndex.toNat ≤ 9

section Cycle

variable {s : Uart} {q : List (BitVec 8)} (i : UartIn)

/-- The bit index stays in range. -/
theorem rxNext_index (h : s.rxBitIndex.toNat ≤ 9) : (s.rxNext.2.1).toNat ≤ 9 := by
  unfold rxNext
  split
  · exact Nat.zero_le 9
  · split
    · split
      · exact h
      · split
        · split
          · exact Nat.le_of_ble_eq_true rfl
          · exact h
        · split
          · rename_i hle
            rw [BitVec.le_def] at hle
            show (s.rxBitIndex + 1).toNat ≤ 9
            have h8 : s.rxBitIndex.toNat ≤ 8 := hle
            rw [BitVec.toNat_add]
            exact Nat.le_trans (Nat.mod_le _ _) (Nat.succ_le_succ h8)
          · exact h
    · exact h

/-- The stop bit is sampled when the index is neither that of the start bit nor of a data bit. -/
theorem stop_index (h : s.rxBitIndex.toNat ≤ 9) :
    (s.rxBitIndex == 9) = (s.rxBitIndex != 0 && !decide (s.rxBitIndex ≤ 8)) := by
  have h9 : s.rxBitIndex = 9 ↔ s.rxBitIndex.toNat = 9 := by rw [← BitVec.toNat_inj]; rfl
  have h0 : s.rxBitIndex = 0 ↔ s.rxBitIndex.toNat = 0 := by rw [← BitVec.toNat_inj]; rfl
  have h8 : s.rxBitIndex ≤ 8 ↔ s.rxBitIndex.toNat ≤ 8 := by rw [BitVec.le_def]; rfl
  rw [Bool.eq_iff_iff, beq_iff_eq, Bool.and_eq_true, bne_iff_ne, Bool.not_eq_true', decide_eq_false_iff_not, ne_eq, h9,
    h0, h8]
  omega

/-- The two push conditions agree. -/
theorem rxPush_eq_rxStore (h : s.rxBitIndex.toNat ≤ 9) : s.rxPush = s.rxStore := by
  unfold rxPush rxStore
  rw [stop_index h]
  cases s.rxBusy <;> cases s.rxBaudCount == 0 <;> cases s.rxBitIndex != 0 <;>
    cases !decide (s.rxBitIndex ≤ 8) <;> rfl

/-- A byte is stored when the stop bit is sampled high and there is room. -/
theorem rxStore_iff (h : s.rxBitIndex.toNat ≤ 9) :
    s.rxStore = true ↔ s.Samples 9 ∧ s.rxSync = true ∧ s.rxFull = false := by
  have h9 : s.rxBitIndex = 9 ↔ s.rxBitIndex.toNat = 9 := by rw [← BitVec.toNat_inj]; rfl
  rw [← rxPush_eq_rxStore h]
  unfold rxPush Samples
  rw [← h9]
  simp only [Bool.and_eq_true, beq_iff_eq, Bool.not_eq_true', and_assoc]
  exact ⟨fun ⟨a, b, c, d⟩ => ⟨a, c, b, d⟩, fun ⟨a, c, b, d⟩ => ⟨a, b, c, d⟩⟩

/-- The receive FIFO is full with four bytes. -/
theorem rxFull_iff : s.rxFull = true ↔ s.rxCount.toNat = 4 := by
  unfold rxFull
  rw [beq_iff_eq, ← BitVec.toNat_inj]
  rfl

/-- The receive FIFO is empty without a byte. -/
theorem rxEmpty_iff : s.rxEmpty = true ↔ s.rxCount.toNat = 0 := by
  unfold rxEmpty
  rw [toNat_beq_zero, decide_eq_true_eq]

/-- A byte is read only when there is one. -/
theorem rxPop_pos (h : s.rxPop i = true) : 0 < s.rxCount.toNat := by
  unfold rxPop at h
  rw [Bool.and_eq_true, Bool.not_eq_true', ← Bool.not_eq_true, rxEmpty_iff] at h
  exact Nat.pos_of_ne_zero h.2

/-- A read takes the entry at the read pointer. -/
theorem reads_eq : reads s i = if s.rxPop i then [s.rxFifo s.rxRdPtr] else [] := by
  unfold reads
  by_cases hpop : s.rxPop i = true
  · have hpos := rxPop_pos i hpop
    have hempty : s.rxEmpty = false := by
      rw [← Bool.not_eq_true, rxEmpty_iff]
      exact Nat.pos_iff_ne_zero.mp hpos
    have hreg : (register i == 0x01) = true := by
      unfold rxPop at hpop
      simp only [Bool.and_eq_true] at hpop
      exact hpop.1.2
    rw [if_pos hpop, if_pos hpop]
    unfold reqRdata
    rw [if_pos hreg, hempty, if_neg Bool.false_ne_true]
    simp
  · rw [if_neg hpop, if_neg hpop]

variable (h : RxQueue s q)

include h

/-- The queue has at most four bytes. -/
theorem RxQueue.le : q.length ≤ 4 := h.spans.le

/-- A byte is stored only while there is room. -/
theorem RxQueue.room (hstore : s.rxStore = true) : q.length < 4 := by
  have hle := h.le
  have hcount := h.count
  obtain ⟨-, -, hfull⟩ := (rxStore_iff h.index).mp hstore
  have hne : s.rxCount.toNat ≠ 4 := fun h4 => Bool.false_ne_true (hfull.symm.trans (rxFull_iff.mpr h4))
  omega

/-- The entries of the FIFO are the list. -/
theorem RxQueue.contents : s.rxContents = q := by
  unfold rxContents
  rw [h.count]
  refine List.ext_getElem (by simp) fun n hn hn' => ?_
  rw [List.getElem_map, List.getElem_range, h.spans.get n hn']

/-- The count follows the bytes stored and read. -/
theorem RxQueue.count_next :
    (s.next i).rxCount.toNat + (if s.rxPop i then 1 else 0) = s.rxCount.toNat + (if s.rxStore then 1 else 0) := by
  have hle := h.le
  rw [← h.count] at hle
  have hroom : s.rxStore = true → s.rxCount.toNat < 4 := by
    intro hstore
    rw [h.count]
    exact h.room hstore
  rw [← rxPush_eq_rxStore h.index] at hroom ⊢
  exact count_toNat hle hroom (rxPop_pos i)

/-- The FIFO after a cycle: what is stored goes behind what is there, and what is read is the oldest byte. -/
theorem RxQueue.next : ∃ q', RxQueue (s.next i) q' ∧ q ++ delivers s i = reads s i ++ q' := by
  have hpos : s.rxPop i = true → 0 < q.length := by
    rw [← h.count]
    exact rxPop_pos i
  obtain ⟨q', hspans, hsplit⟩ := h.spans.cycle s.rxShift h.room hpos
  have hcount := h.count_next i
  have hlen := length_cycle hsplit
  rw [h.count] at hcount
  refine ⟨q', ⟨hspans, by omega, rxNext_index h.index⟩, ?_⟩
  rw [reads_eq]
  exact hsplit

end Cycle

/-! ## Frames -/

/-- How a cycle leaves the receiver busy: it has seen a falling edge, it counts, or it has sampled the start bit or a
data bit. -/
theorem busy_cases {s : Uart} (i : UartIn) (hindex : s.rxBitIndex.toNat ≤ 9) (hbusy : (s.next i).rxBusy = true) :
    (s.rxBusy = false ∧ (s.next i).rxBitIndex.toNat = 0) ∨
    (s.rxBusy = true ∧ (s.next i).rxBitIndex = s.rxBitIndex ∧ (s.next i).rxShift = s.rxShift) ∨
    (s.Samples 0 ∧ s.rxSync = false ∧ (s.next i).rxBitIndex.toNat = 1) ∨
    (∃ j < 8, s.Samples (j + 1) ∧ (s.next i).rxBitIndex.toNat = j + 2 ∧
      ∀ m < 8, (s.next i).rxShift.getLsbD m = if j = m then s.rxSync else s.rxShift.getLsbD m) := by
  have hnext : (s.next i).rxBusy = s.rxNext.1 ∧ (s.next i).rxBitIndex = s.rxNext.2.1 ∧
      (s.next i).rxShift = s.rxNext.2.2.2 := ⟨rfl, rfl, rfl⟩
  obtain ⟨h1, h2, h3⟩ := hnext
  rw [h1] at hbusy
  rw [h2, h3]
  cases hb : s.rxBusy with
  | false =>
    refine Or.inl ⟨rfl, ?_⟩
    unfold rxNext at hbusy ⊢
    rw [hb] at hbusy ⊢
    split
    · rfl
    · rename_i hedge
      rw [if_neg hedge, if_neg Bool.false_ne_true] at hbusy
      exact absurd hbusy Bool.false_ne_true
  | true =>
    refine Or.inr ?_
    unfold rxNext at hbusy ⊢
    rw [hb, Bool.not_true, Bool.false_and, Bool.false_and, Bool.false_and, if_neg Bool.false_ne_true, if_pos rfl]
      at hbusy ⊢
    by_cases hcount : s.rxBaudCount = 0
    · rw [hcount, bne_self_eq_false, if_neg Bool.false_ne_true] at hbusy ⊢
      by_cases h0 : s.rxBitIndex = 0
      · rw [if_pos (by rw [h0]; rfl)] at hbusy ⊢
        cases hsync : s.rxSync with
        | true =>
          rw [hsync] at hbusy
          exact absurd hbusy Bool.false_ne_true
        | false =>
          refine Or.inr (Or.inl ⟨⟨hb, hcount, ?_⟩, rfl, rfl⟩)
          rw [h0]
          rfl
      · rw [if_neg (by rw [beq_iff_eq]; exact h0)] at hbusy ⊢
        have hpos : s.rxBitIndex.toNat ≠ 0 := fun hz => h0 (BitVec.eq_of_toNat_eq hz)
        by_cases h8 : s.rxBitIndex ≤ 8
        · have hle : s.rxBitIndex.toNat ≤ 8 := h8
          rw [if_pos h8]
          refine Or.inr (Or.inr ⟨s.rxBitIndex.toNat - 1, by omega, ⟨hb, hcount, by omega⟩, ?_, fun m hm => ?_⟩)
          · show (s.rxBitIndex + 1).toNat = s.rxBitIndex.toNat - 1 + 2
            rw [BitVec.toNat_add]
            show (s.rxBitIndex.toNat + 1) % 16 = s.rxBitIndex.toNat - 1 + 2
            omega
          · dsimp only
            rw [toNat_pred _ hpos]
            exact sample_bit _ _ (by omega) hm
        · rw [if_neg h8] at hbusy
          exact absurd hbusy Bool.false_ne_true
    · rw [if_pos (by rw [bne_iff_ne]; exact hcount)]
      exact Or.inl ⟨rfl, rfl, rfl⟩

/-- The first `j` bits of a frame were sampled in the cycles `c 0`, `c 1` and so on before cycle `n` of the states `r`,
its start bit was low, and `b` has its data bits. -/
structure Sampled (r : Nat → Uart) (c : Nat → Nat) (j n : Nat) (b : BitVec 8) : Prop where
  sample : ∀ k < j, (r (c k)).Samples k
  order : ∀ k, k + 1 < j → c k < c (k + 1)
  before : ∀ k < j, c k < n
  busy : ∀ m, 0 < j → c 0 ≤ m → m < n → (r m).rxBusy = true
  start : 0 < j → (r (c 0)).rxSync = false
  bits : ∀ m, m + 1 < j → b.getLsbD m = (r (c (m + 1))).rxSync

namespace Sampled

variable {r : Nat → Uart} {c : Nat → Nat} {j n : Nat} {b : BitVec 8}

/-- Before its first bit nothing of a byte has to be sampled. -/
theorem none (r : Nat → Uart) (n : Nat) (b : BitVec 8) : Sampled r (fun _ => 0) 0 n b :=
  ⟨fun _ h => absurd h (Nat.not_lt_zero _), fun _ h => absurd h (Nat.not_lt_zero _),
    fun _ h => absurd h (Nat.not_lt_zero _), fun _ h => absurd h (Nat.not_lt_zero _),
    fun h => absurd h (Nat.not_lt_zero _), fun _ h => absurd h (Nat.not_lt_zero _)⟩

/-- A cycle without a sample. -/
theorem wait (h : Sampled r c j n b) (hbusy : (r n).rxBusy = true) : Sampled r c j (n + 1) b := by
  refine ⟨h.sample, h.order, fun k hk => Nat.lt_succ_of_lt (h.before k hk), fun m hj hm hmn => ?_, h.start, h.bits⟩
  rcases Nat.lt_succ_iff_lt_or_eq.mp hmn with hlt | heq
  · exact h.busy m hj hm hlt
  · rw [heq]
    exact hbusy

/-- One more sample. -/
theorem snoc (h : Sampled r c j n b) (hsample : (r n).Samples j) (hstart : j = 0 → (r n).rxSync = false) {x : BitVec 8}
    (hbits : ∀ m, m + 1 < j → x.getLsbD m = b.getLsbD m) (hlast : ∀ m, m + 1 = j → x.getLsbD m = (r n).rxSync) :
    Sampled r (fun k => if k < j then c k else n) (j + 1) (n + 1) x := by
  refine ⟨fun k hk => ?_, fun k hk => ?_, fun k hk => ?_, fun m _ hm hmn => ?_, fun _ => ?_, fun m hm => ?_⟩
  · by_cases hkj : k < j
    · rw [if_pos hkj]
      exact h.sample k hkj
    · rw [if_neg hkj, show k = j by omega]
      exact hsample
  · rw [if_pos (by omega)]
    by_cases hkj : k + 1 < j
    · rw [if_pos hkj]
      exact h.order k hkj
    · rw [if_neg hkj]
      exact h.before k (by omega)
  · by_cases hkj : k < j
    · rw [if_pos hkj]
      exact Nat.lt_succ_of_lt (h.before k hkj)
    · rw [if_neg hkj]
      exact Nat.lt_succ_self n
  · rcases Nat.lt_succ_iff_lt_or_eq.mp hmn with hlt | heq
    · by_cases hj : 0 < j
      · rw [if_pos hj] at hm
        exact h.busy m hj hm hlt
      · rw [if_neg hj] at hm
        omega
    · rw [heq]
      exact hsample.1
  · by_cases hj : 0 < j
    · rw [if_pos hj]
      exact h.start hj
    · rw [if_neg hj]
      exact hstart (by omega)
  · by_cases hmj : m + 1 < j
    · rw [if_pos hmj, hbits m hmj]
      exact h.bits m hmj
    · rw [if_neg hmj]
      exact hlast m (by omega)

end Sampled

/-! ## Runs -/

section Runs

variable (clockHz baud : Nat) (w : Nat → UartIn)

/-- What a run has stored in the receive FIFO, and what was read from it. -/
def stored (n : Nat) : List (BitVec 8) := (machine clockHz baud).events delivers w n

@[inherit_doc stored]
def readOut (n : Nat) : List (BitVec 8) := (machine clockHz baud).events reads w n

/-- The pushes and the pops of the receive FIFO in a run. -/
def pushes (n : Nat) : Nat := (List.range n).countP fun m => ((machine clockHz baud).run w m).rxPush

@[inherit_doc pushes]
def pops (n : Nat) : Nat := (List.range n).countP fun m => ((machine clockHz baud).run w m).rxPop (w m)

/-- The FIFO holds what was stored and not read yet. -/
theorem rxQueue_run (n : Nat) : ∃ q, RxQueue ((machine clockHz baud).run w n) q ∧
    stored clockHz baud w n = readOut clockHz baud w n ++ q := by
  induction n with
  | zero => exact ⟨[], ⟨Ring.Spans.empty _ _, rfl, Nat.zero_le 9⟩, rfl⟩
  | succ n ih =>
    obtain ⟨q, hq, hsplit⟩ := ih
    obtain ⟨q', hq', hstep⟩ := hq.next (w n)
    refine ⟨q', hq', ?_⟩
    calc stored clockHz baud w n ++ delivers ((machine clockHz baud).run w n) (w n)
        = readOut clockHz baud w n ++ (q ++ delivers ((machine clockHz baud).run w n) (w n)) := by
          rw [hsplit, List.append_assoc]
      _ = readOut clockHz baud w n ++ reads ((machine clockHz baud).run w n) (w n) ++ q' := by
          rw [hstep, List.append_assoc]

/-- The count is the number of pushes less the number of pops. -/
theorem rxCount_run (n : Nat) :
    ((machine clockHz baud).run w n).rxCount.toNat + pops clockHz baud w n = pushes clockHz baud w n := by
  induction n with
  | zero => rfl
  | succ n ih =>
    obtain ⟨q, hq, -⟩ := rxQueue_run clockHz baud w n
    have hcount := hq.count_next (w n)
    rw [← rxPush_eq_rxStore hq.index] at hcount
    unfold pops pushes at ih ⊢
    rw [List.range_succ, List.countP_append, List.countP_append, List.countP_singleton, List.countP_singleton,
      Machine.run_succ]
    show (((machine clockHz baud).run w n).next (w n)).rxCount.toNat + _ = _
    omega

/-- A busy receiver has the bits of its frame. -/
theorem sampled_run (n : Nat) (hbusy : ((machine clockHz baud).run w n).rxBusy = true) :
    ∃ c, Sampled ((machine clockHz baud).run w) c ((machine clockHz baud).run w n).rxBitIndex.toNat n
      ((machine clockHz baud).run w n).rxShift := by
  induction n with
  | zero => exact absurd hbusy Bool.false_ne_true
  | succ n ih =>
    obtain ⟨q, hq, -⟩ := rxQueue_run clockHz baud w n
    have hnext : (machine clockHz baud).run w (n + 1) = ((machine clockHz baud).run w n).next (w n) := rfl
    rw [hnext] at hbusy ⊢
    rcases busy_cases (w n) hq.index hbusy with ⟨-, hindex⟩ | ⟨hb, hindex, hshift⟩ | ⟨hsample, hlow, hindex⟩ |
        ⟨j, hj, hsample, hindex, hshift⟩
    · rw [hindex]
      exact ⟨_, Sampled.none _ _ _⟩
    · obtain ⟨c, hc⟩ := ih hb
      rw [hindex, hshift]
      exact ⟨c, hc.wait hb⟩
    · have hfirst := (Sampled.none ((machine clockHz baud).run w) n 0).snoc hsample (fun _ => hlow)
        (x := (((machine clockHz baud).run w n).next (w n)).rxShift) (fun m hm => absurd hm (Nat.not_lt_zero _))
        (fun m hm => absurd hm (Nat.succ_ne_zero m))
      rw [hindex]
      exact ⟨_, hfirst⟩
    · obtain ⟨c, hc⟩ := ih hsample.1
      rw [hsample.2.2] at hc
      have hbits : ∀ m, m + 1 < j + 1 → (((machine clockHz baud).run w n).next (w n)).rxShift.getLsbD m =
          ((machine clockHz baud).run w n).rxShift.getLsbD m := by
        intro m hm
        rw [hshift m (by omega), if_neg (by omega)]
      have hlast : ∀ m, m + 1 = j + 1 → (((machine clockHz baud).run w n).next (w n)).rxShift.getLsbD m =
          ((machine clockHz baud).run w n).rxSync := by
        intro m hm
        rw [hshift m (by omega), if_pos (by omega)]
      rw [hindex]
      exact ⟨_, hc.snoc hsample (fun h0 => absurd h0 (Nat.succ_ne_zero j)) hbits hlast⟩

end Runs

end Uart

end SocRV
