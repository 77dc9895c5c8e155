import SocRV.Lib.Counting
import SocRV.Soc.Uart

/-!
# The line of the transmitter

A byte taken from the transmit FIFO is shifted out bit by bit, each bit for the divisor's number of cycles.
-/

namespace SocRV

namespace Uart

/-! ## Bits on the line -/

/-- Bit `k` of the frame of a byte, and the level of the line before it. -/
def lineBit (b : BitVec 8) (k : Nat) : Bool := (serialFrame b).getD k true

@[inherit_doc lineBit]
def prevBit (b : BitVec 8) (k : Nat) : Bool := if k = 0 then true else lineBit b (k - 1)

/-- From the stop bit on the line is high. -/
theorem lineBit_high (b : BitVec 8) {k : Nat} (hk : 9 ≤ k) : lineBit b k = true := by
  rcases Nat.eq_or_lt_of_le hk with h | h
  · rw [← h]
    rfl
  · unfold lineBit
    rw [List.getD_eq_getElem?_getD, List.getElem?_eq_none (by rw [serialFrame_length]; omega)]
    rfl

/-- Between start and stop bit the line shows the byte, its lowest bit first. -/
theorem lineBit_data (b : BitVec 8) {j : Nat} (h1 : 1 ≤ j) (h8 : j ≤ 8) : lineBit b j = b.getLsbD (j - 1) := by
  unfold lineBit
  rw [serialFrame_getD b (by omega), if_neg (by omega), if_pos h8]

/-- The shift register is loaded with the frame. -/
theorem load_bits (b : BitVec 8) {m : Nat} (hm : m < 10) :
    (0b1#1 ++ b ++ 0b0#1).getLsbD m = lineBit b m := by
  rw [lineBit, serialFrame_getD b hm, BitVec.getLsbD_append]
  by_cases h0 : m < 1
  · rw [if_pos h0, if_pos (by omega), show m = 0 by omega]
    rfl
  · rw [if_neg h0, if_neg (by omega), BitVec.getLsbD_append]
    by_cases h8 : m ≤ 8
    · rw [if_pos (by omega), if_pos h8]
    · rw [if_neg (by omega), if_neg h8, show m - 1 - 8 = 0 by omega]
      rfl

/-! ## Shifting out -/

/-- Bit `k` of `b` is on the line for `c` more cycles after this one. -/
structure Shifts (d : Nat) (s : Uart) (b : BitVec 8) (k c : Nat) : Prop where
  left : s.txBitsLeft.toNat + k = 10
  count : s.txBaudCount.toNat = c
  shift : ∀ m < 10, s.txShift.getLsbD m = lineBit b (k + m)
  bit_lt : k < 10
  count_lt : c < d

namespace Shifts

variable {d : Nat} {s : Uart} {b : BitVec 8} {k c : Nat}

/-- While a frame is sent some of its bits are left. -/
theorem left_ne (h : Shifts d s b k c) : s.txBitsLeft.toNat ≠ 0 := by
  have hleft := h.left
  have hlt := h.bit_lt
  omega

/-- The line has the bit. -/
theorem tx (h : Shifts d s b k c) : s.uartTx = lineBit b k := by
  unfold uartTx
  rw [toNat_beq_zero, decide_eq_false h.left_ne, if_neg Bool.false_ne_true, h.shift 0 (by omega), Nat.add_zero]

/-- No byte is taken meanwhile. -/
theorem txPop (h : Shifts d s b k c) : s.txPop = false := by
  unfold Uart.txPop
  rw [toNat_beq_zero, decide_eq_false h.left_ne, Bool.and_false, Bool.false_and]

/-- The registers of the transmitter count down within a bit, -/
theorem txNext_count (h : Shifts d s b k c) (hc : c ≠ 0) :
    s.txNext = (s.txShift, s.txBitsLeft, s.txBaudCount - 1) := by
  have hcount := h.count
  unfold txNext
  rw [h.txPop, if_neg Bool.false_ne_true, bne, toNat_beq_zero, decide_eq_false h.left_ne, Bool.not_false, if_pos rfl,
    toNat_beq_zero, decide_eq_false (by omega), if_neg Bool.false_ne_true]

/-- and shift behind it. -/
theorem txNext_shift (h : Shifts d s b k 0) :
    s.txNext = (0b1#1 ++ s.txShift.extractLsb' 1 9, s.txBitsLeft - 1, s.baudDiv - 1) := by
  unfold txNext
  rw [h.txPop, if_neg Bool.false_ne_true, bne, toNat_beq_zero, decide_eq_false h.left_ne, Bool.not_false, if_pos rfl,
    toNat_beq_zero, decide_eq_true h.count, if_pos rfl]

/-- Within a bit, the counter goes down. -/
theorem next_count (h : Shifts d s b k c) (i : UartIn) (hc : c ≠ 0) : Shifts d (s.next i) b k (c - 1) := by
  have hcount := h.count
  have hlt := h.count_lt
  refine ⟨?_, ?_, ?_, h.bit_lt, by omega⟩
  · rw [next, h.txNext_count hc]
    exact h.left
  · rw [next, h.txNext_count hc]
    exact (toNat_pred _ (by omega)).trans (by rw [hcount])
  · rw [next, h.txNext_count hc]
    exact h.shift

/-- Behind a bit comes the next one. -/
theorem next_bit (h : Shifts d s b k 0) (i : UartIn) (hk : k < 9) (hd : 0 < d) (hbaud : s.baudDiv.toNat = d) :
    Shifts d (s.next i) b (k + 1) (d - 1) := by
  have hleft := h.left
  refine ⟨?_, ?_, ?_, by omega, by omega⟩
  · rw [next, h.txNext_shift]
    dsimp only
    rw [toNat_pred _ h.left_ne]
    omega
  · rw [next, h.txNext_shift]
    exact (toNat_pred _ (by omega)).trans (by rw [hbaud])
  · intro m hm
    rw [next, h.txNext_shift]
    dsimp only
    rw [BitVec.getLsbD_append]
    by_cases hm9 : m < 9
    · rw [if_pos hm9, BitVec.getLsbD_extractLsb', decide_eq_true hm9, Bool.true_and, h.shift (1 + m) (by omega)]
      congr 1
      omega
    · rw [if_neg hm9, lineBit_high b (by omega), show m - 9 = 0 by omega]
      rfl

/-- Behind the stop bit the line is free. -/
theorem next_free (h : Shifts d s b 9 0) (i : UartIn) : (s.next i).txBitsLeft.toNat = 0 := by
  have hleft := h.left
  rw [next, h.txNext_shift]
  dsimp only
  rw [toNat_pred _ h.left_ne]
  omega

end Shifts

section Line

variable {d : Nat} {s : Uart} (i : UartIn)

/-- A byte taken from the FIFO starts with its start bit. -/
theorem shifts_of_pop (hpop : s.txPop = true) (hd : 0 < d) (hbaud : s.baudDiv.toNat = d) :
    Shifts d (s.next i) (s.txFifo s.txRdPtr) 0 (d - 1) := by
  have htx : s.txNext = (0b1#1 ++ s.txFifo s.txRdPtr ++ 0b0#1, 10, s.baudDiv - 1) := by
    unfold txNext
    rw [hpop, if_pos rfl]
  refine ⟨?_, ?_, ?_, by omega, by omega⟩
  · rw [next, htx]
    rfl
  · rw [next, htx]
    exact (toNat_pred _ (by omega)).trans (by rw [hbaud])
  · intro m hm
    rw [next, htx]
    dsimp only
    rw [Nat.zero_add]
    exact load_bits _ hm

/-- A free line stays free until a byte is taken. -/
theorem free_next (hleft : s.txBitsLeft.toNat = 0) (hpop : s.txPop = false) : (s.next i).txBitsLeft.toNat = 0 := by
  rw [next]
  dsimp only
  unfold txNext
  rw [hpop, if_neg Bool.false_ne_true, bne, toNat_beq_zero, decide_eq_true hleft, Bool.not_true,
    if_neg Bool.false_ne_true]
  exact hleft

/-- A free line is high. -/
theorem tx_of_free (hleft : s.txBitsLeft.toNat = 0) : s.uartTx = true := by
  unfold uartTx
  rw [toNat_beq_zero, decide_eq_true hleft, if_pos rfl]

end Line

end Uart

end SocRV
