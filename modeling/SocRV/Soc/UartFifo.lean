import SocRV.Lib.Ring
import SocRV.Soc.UartLink

/-!
# The bytes between a write and a read

The transmit FIFO keeps the accepted bytes in order; behind it they are on the line.  What a cycle accepts goes to the
end of what is pending, and what it delivers is taken from the front.
-/

namespace SocRV

namespace Uart

/-- A count after a push, a pop, both or neither. -/
theorem count_toNat {n : BitVec 3} {push pop : Bool} (hle : n.toNat ≤ 4) (hroom : push = true → n.toNat < 4)
    (hpos : pop = true → 0 < n.toNat) :
    (count n push pop).toNat + (if pop then 1 else 0) = n.toNat + (if push then 1 else 0) := by
  cases push <;> cases pop
  · rfl
  · have hne := hpos rfl
    show (n - 1).toNat + 1 = n.toNat
    rw [toNat_pred _ (by omega)]
    omega
  · show (n + 1).toNat = n.toNat + 1
    rw [BitVec.toNat_add]
    exact Nat.mod_eq_of_lt (by simp; omega)
  · rfl

/-- The length of a list after a push, a pop, both or neither. -/
theorem length_cycle {α : Type*} {q q' : List α} {push pop : Bool} {e x : α}
    (h : q ++ (if push then [e] else []) = (if pop then [x] else []) ++ q') :
    q.length + (if push then 1 else 0) = (if pop then 1 else 0) + q'.length := by
  have hlen := congrArg List.length h
  rw [List.length_append, List.length_append] at hlen
  cases push <;> cases pop <;> exact hlen

/-- The transmit FIFO holds the list `q`. -/
structure Queue (s : Uart) (q : List (BitVec 8)) : Prop where
  spans : Ring.Spans s.txFifo s.txRdPtr s.txWrPtr q
  count : s.txCount.toNat = q.length

section Fifo

variable {s : Uart} {q : List (BitVec 8)} (h : Queue s q) (i : UartIn)

include h

/-- A byte is accepted only while there is room. -/
theorem Queue.room (hpush : s.txPush i = true) : q.length < 4 := by
  have hle : q.length ≤ 4 := h.spans.le
  have hne : s.txCount ≠ 4 := by
    intro hfull
    unfold txPush reqReady txFull at hpush
    rw [hfull] at hpush
    simp only [Bool.and_eq_true] at hpush
    obtain ⟨⟨⟨⟨⟨hv, hr⟩, hwr⟩, hreg⟩, -⟩, -⟩ := hpush
    rw [hv, hwr, hreg] at hr
    exact absurd hr (by decide)
  have hcount := h.count
  have hne' : s.txCount.toNat ≠ 4 := fun h4 => hne (BitVec.eq_of_toNat_eq h4)
  omega

/-- A byte is taken only when there is one, and it is the oldest. -/
theorem Queue.head (hpop : s.txPop = true) : q = s.txFifo s.txRdPtr :: q.drop 1 := by
  have hcount := h.count
  cases hq : q with
  | nil =>
    unfold txPop txEmpty at hpop
    rw [hq, List.length_nil] at hcount
    rw [toNat_beq_zero s.txCount, hcount] at hpop
    simp at hpop
  | cons b rest =>
    have hget := h.spans.head (by rw [hq]; exact Nat.succ_pos _)
    simp only [hq, List.getElem_cons_zero] at hget
    rw [hget]
    rfl

/-- The count follows the list. -/
theorem Queue.count_next (hroom : s.txPush i = true → q.length < 4) (hpos : s.txPop = true → 0 < q.length) :
    (Uart.count s.txCount (s.txPush i) s.txPop).toNat + (if s.txPop then 1 else 0) =
      q.length + (if s.txPush i then 1 else 0) := by
  have hle : q.length ≤ 4 := h.spans.le
  rw [← h.count] at hroom hpos hle ⊢
  exact count_toNat hle hroom hpos

/-- The FIFO after a cycle: what is accepted goes behind what is there, and what is taken is the oldest byte. -/
theorem Queue.next : ∃ q', Queue (s.next i) q' ∧ q ++ accepts s i = taken s ++ q' := by
  have hpos : s.txPop = true → 0 < q.length := by
    intro hpop
    rw [h.head hpop]
    exact Nat.succ_pos _
  obtain ⟨q', hspans, hsplit⟩ := h.spans.cycle (i.reqWdata.setWidth 8) (h.room i) hpos
  refine ⟨q', ⟨hspans, ?_⟩, hsplit⟩
  have hcount := h.count_next i (h.room i) hpos
  have hlen := length_cycle hsplit
  show (Uart.count s.txCount (s.txPush i) s.txPop).toNat = q'.length
  omega

end Fifo

end Uart

end SocRV
