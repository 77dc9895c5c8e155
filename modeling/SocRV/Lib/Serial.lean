import Mathlib.Algebra.Group.Nat.Defs
import Mathlib.Tactic.Common

/-!
# Bytes on a serial line

A byte is sent as a start bit, its eight bits from the least significant one on, and a stop bit; the idle line is high.
-/

namespace SocRV

/-- The bits of a byte on the line. -/
def serialFrame (b : BitVec 8) : List Bool :=
  [false, b.getLsbD 0, b.getLsbD 1, b.getLsbD 2, b.getLsbD 3, b.getLsbD 4, b.getLsbD 5, b.getLsbD 6, b.getLsbD 7, true]

@[simp] theorem serialFrame_length (b : BitVec 8) : (serialFrame b).length = 10 := rfl

/-- Bit `k` of a frame. -/
theorem serialFrame_getD (b : BitVec 8) {k : Nat} (hk : k < 10) :
    (serialFrame b).getD k true = if k = 0 then false else if k ≤ 8 then b.getLsbD (k - 1) else true := by
  obtain rfl | rfl | rfl | rfl | rfl | rfl | rfl | rfl | rfl | rfl :
      k = 0 ∨ k = 1 ∨ k = 2 ∨ k = 3 ∨ k = 4 ∨ k = 5 ∨ k = 6 ∨ k = 7 ∨ k = 8 ∨ k = 9 := by omega
  all_goals rfl

/-- The bits of a sequence of bytes. -/
def serialFrames (bs : List (BitVec 8)) : List Bool := bs.flatMap serialFrame

/-- A bit of a sequence of bytes is a bit of one of them. -/
theorem serialFrames_getD (bs : List (BitVec 8)) {i k : Nat} (hi : i < bs.length) (hk : k < 10) :
    (serialFrames bs).getD (10 * i + k) true = (serialFrame (bs.getD i 0)).getD k true := by
  induction bs generalizing i with
  | nil => exact absurd hi (Nat.not_lt_zero i)
  | cons b bs ih =>
    rw [serialFrames, List.flatMap_cons]
    rw [serialFrames] at ih
    simp only [List.getD_eq_getElem?_getD] at ih ⊢
    cases i with
    | zero => rw [List.getElem?_append_left (by rw [serialFrame_length]; omega), Nat.mul_zero, Nat.zero_add]; rfl
    | succ i =>
      rw [List.getElem?_append_right (by rw [serialFrame_length]; omega), serialFrame_length]
      have hsum : 10 * (i + 1) + k - 10 = 10 * i + k := by omega
      rw [hsum, List.getElem?_cons_succ]
      exact ih (Nat.lt_of_succ_lt_succ hi)

/-- The level of the line `c` cycles after the start of a sequence of bytes sent at `d` cycles a bit. -/
def serialWave (d : Nat) (bs : List (BitVec 8)) (c : Nat) : Bool := (serialFrames bs).getD (c / d) true

/-- How long a sequence of bytes takes. -/
def serialTime (d : Nat) (bs : List (BitVec 8)) : Nat := bs.length * (10 * d)

/-! ## Bits of a given length -/

/-- The levels of a line on which each bit takes `p` cycles. -/
def serialBits (p : Nat) (bits : List Bool) : List Bool := bits.flatMap (List.replicate p)

theorem serialBits_length (p : Nat) (bits : List Bool) : (serialBits p bits).length = bits.length * p := by
  induction bits with
  | nil => exact (Nat.zero_mul p).symm
  | cons v bits ih =>
    rw [serialBits] at ih ⊢
    rw [List.flatMap_cons, List.length_append, List.length_replicate, ih, List.length_cons, Nat.succ_mul, Nat.add_comm]

/-- The level in a cycle is the bit the cycle lies in. -/
theorem serialBits_getD {p : Nat} {bits : List Bool} {k x : Nat} (hk : k < bits.length) (hx : x < p) (v : Bool) :
    (serialBits p bits).getD (k * p + x) v = bits.getD k v := by
  induction bits generalizing k with
  | nil => exact absurd hk (Nat.not_lt_zero k)
  | cons u bits ih =>
    rw [serialBits] at ih ⊢
    rw [List.flatMap_cons]
    simp only [List.getD_eq_getElem?_getD] at ih ⊢
    cases k with
    | zero =>
      rw [Nat.zero_mul, Nat.zero_add, List.getElem?_append_left (by rwa [List.length_replicate]),
        List.getElem?_replicate_of_lt hx]
      rfl
    | succ k =>
      have hidx : (k + 1) * p + x = p + (k * p + x) := by
        rw [Nat.succ_mul]
        omega
      rw [hidx, List.getElem?_append_right (by rw [List.length_replicate]; omega), List.length_replicate,
        Nat.add_sub_cancel_left, List.getElem?_cons_succ]
      exact ih (Nat.lt_of_succ_lt_succ hk)

/-- A line on which bytes are sent at `p` cycles a bit, each behind a gap of its own. -/
def serialLine (p : Nat) : List (Nat × BitVec 8) → List Bool
  | [] => []
  | (g, b) :: fs => List.replicate g true ++ (serialBits p (serialFrame b) ++ serialLine p fs)

/-- The bytes sent. -/
def serialBytes (fs : List (Nat × BitVec 8)) : List (BitVec 8) := fs.map Prod.snd

/-- How long a line takes with one byte more. -/
theorem serialLine_cons_length (p g : Nat) (b : BitVec 8) (fs : List (Nat × BitVec 8)) :
    (serialLine p ((g, b) :: fs)).length = g + (10 * p + (serialLine p fs).length) := by
  rw [serialLine, List.length_append, List.length_append, List.length_replicate, serialBits_length, serialFrame_length]

/-! ## Lines with gaps -/

/-- From cycle 0 on the frames of the bytes are on the line, at `d` cycles a bit, each behind a gap of its own; cycle `n`
is outside of them. -/
inductive SerialCarries (d : Nat) (f : Nat → Bool) : List (BitVec 8) → Nat → Prop
  | start : SerialCarries d f [] 0
  | high {bs : List (BitVec 8)} {n : Nat} : SerialCarries d f bs n → f n = true → SerialCarries d f bs (n + 1)
  | frame {bs : List (BitVec 8)} {n : Nat} {b : BitVec 8} : SerialCarries d f bs n →
      (∀ c < 10 * d, f (n + c) = (serialFrame b).getD (c / d) true) → SerialCarries d f (bs ++ [b]) (n + 10 * d)

/-- A gap. -/
theorem SerialCarries.gap {d : Nat} {f : Nat → Bool} {bs : List (BitVec 8)} {n k : Nat} (h : SerialCarries d f bs n)
    (hf : ∀ i < k, f (n + i) = true) : SerialCarries d f bs (n + k) := by
  induction k with
  | zero => exact h
  | succ k ih => exact (ih fun i hi => hf i (Nat.lt_succ_of_lt hi)).high (hf k (Nat.lt_succ_self k))

end SocRV
