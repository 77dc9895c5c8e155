import Mathlib.Algebra.Group.Nat.Defs
import Mathlib.Tactic.Common

/-!
# A 64-bit counter in two halves

A counter of events that is read and written by halves.  A write replaces one half; the other half goes on as if the
half that is written had not carried.
-/

namespace SocRV

namespace SplitCounter

/-- A write to one half. -/
inductive Write where
  | low (v : BitVec 32)
  | high (v : BitVec 32)
  deriving DecidableEq, Repr

/-- The halves of the counter. -/
def lowOf (c : BitVec 64) : BitVec 32 := c.extractLsb' 0 32

@[inherit_doc lowOf]
def highOf (c : BitVec 64) : BitVec 32 := c.extractLsb' 32 32

/-- The counter after a step with a number of events and perhaps a write. -/
def advance (events : Nat) (write : Option Write) (c : BitVec 64) : BitVec 64 :=
  match write with
  | none => c + BitVec.ofNat 64 events
  | some (.low v) => highOf c ++ v
  | some (.high v) => v ++ lowOf (c + BitVec.ofNat 64 events)

/-- The low half carries. -/
def Carries (events : Nat) (c : BitVec 64) : Prop := 2 ^ 32 ≤ (lowOf c).toNat + events

/-- The low half is written in a step in which it carries. -/
def Overwrites (events : Nat) (write : Option Write) (c : BitVec 64) : Prop :=
  (∃ v, write = some (.low v)) ∧ Carries events c

/-- What a step does to two halves that are kept apart, with the carry out of the low half taken to the high half even
when the low half is written. -/
def ripple (events : Nat) (write : Option Write) (c : BitVec 64) : BitVec 64 :=
  match write with
  | none => c + BitVec.ofNat 64 events
  | some (.low v) => highOf (c + BitVec.ofNat 64 events) ++ v
  | some (.high v) => v ++ lowOf (c + BitVec.ofNat 64 events)

/-- The low half is the remainder by its size. -/
theorem toNat_lowOf (c : BitVec 64) : (lowOf c).toNat = c.toNat % 2 ^ 32 := by
  unfold lowOf
  rw [BitVec.extractLsb'_toNat, Nat.shiftRight_zero]

/-- The high half is the quotient by that size. -/
theorem toNat_highOf (c : BitVec 64) : (highOf c).toNat = c.toNat / 2 ^ 32 := by
  unfold highOf
  rw [BitVec.extractLsb'_toNat, Nat.shiftRight_eq_div_pow]
  exact Nat.mod_eq_of_lt (by have := c.isLt; omega)

theorem toNat_append (high low : BitVec 32) : (high ++ low).toNat = high.toNat * 2 ^ 32 + low.toNat := by
  rw [BitVec.toNat_append, ← Nat.shiftLeft_add_eq_or_of_lt low.isLt, Nat.shiftLeft_eq]

theorem lowOf_append (high low : BitVec 32) : lowOf (high ++ low) = low := by
  apply BitVec.eq_of_toNat_eq
  rw [toNat_lowOf, toNat_append]
  have := low.isLt
  omega

theorem highOf_append (high low : BitVec 32) : highOf (high ++ low) = high := by
  apply BitVec.eq_of_toNat_eq
  rw [toNat_highOf, toNat_append]
  have := low.isLt
  omega

/-- A counter is its two halves. -/
theorem append_halves (c : BitVec 64) : highOf c ++ lowOf c = c := by
  apply BitVec.eq_of_toNat_eq
  rw [toNat_append, toNat_highOf, toNat_lowOf]
  omega

/-- The low half counts alone. -/
theorem lowOf_add (c : BitVec 64) (events : Nat) :
    lowOf (c + BitVec.ofNat 64 events) = lowOf c + BitVec.ofNat 32 events := by
  apply BitVec.eq_of_toNat_eq
  rw [toNat_lowOf, BitVec.toNat_add, BitVec.toNat_add, BitVec.toNat_ofNat, BitVec.toNat_ofNat, toNat_lowOf]
  omega

/-- The high half counts the carries. -/
theorem highOf_add (c : BitVec 64) {events : Nat} (h : events < 2 ^ 32) :
    highOf (c + BitVec.ofNat 64 events) = if 2 ^ 32 ≤ (lowOf c).toNat + events then highOf c + 1 else highOf c := by
  have hc := c.isLt
  apply BitVec.eq_of_toNat_eq
  rw [toNat_highOf, BitVec.toNat_add, BitVec.toNat_ofNat, toNat_lowOf]
  split_ifs with hcarry
  · have hone : (1 : BitVec 32).toNat = 1 := rfl
    rw [BitVec.toNat_add, toNat_highOf, hone]
    omega
  · rw [toNat_highOf]
    omega

/-- Taking the carry along is right just when the low half is not written while it carries. -/
theorem ripple_eq_advance_iff {events : Nat} (h : events < 2 ^ 32) (write : Option Write) (c : BitVec 64) :
    ripple events write c = advance events write c ↔ ¬ Overwrites events write c := by
  unfold Overwrites Carries
  cases write with
  | none => exact iff_of_true rfl fun ⟨⟨v, hv⟩, _⟩ => nomatch hv
  | some write =>
    cases write with
    | high v => exact iff_of_true rfl fun ⟨⟨v', hv⟩, _⟩ => nomatch hv
    | low v =>
      unfold ripple advance
      dsimp only
      rw [highOf_add c h]
      by_cases hcarry : 2 ^ 32 ≤ (lowOf c).toNat + events
      · rw [if_pos hcarry]
        refine iff_of_false (fun heq => ?_) (not_not.mpr ⟨⟨v, rfl⟩, hcarry⟩)
        have hhigh := congrArg highOf heq
        rw [highOf_append, highOf_append] at hhigh
        have hone : (1 : BitVec 32).toNat = 1 := rfl
        have hnat := congrArg BitVec.toNat hhigh
        rw [BitVec.toNat_add, hone] at hnat
        have hlt := (highOf c).isLt
        omega
      · rw [if_neg hcarry]
        exact iff_of_true rfl fun ⟨_, hc⟩ => hcarry hc

/-! ## Runs -/

/-- The counter after `n` steps. -/
def value (events : Nat → Nat) (write : Nat → BitVec 64 → Option Write) (c : BitVec 64) : Nat → BitVec 64
  | 0 => c
  | n + 1 => advance (events n) (write n (value events write c n)) (value events write c n)

/-- A sequence of values is that of the counter just when each step of it is. -/
theorem value_iff {events : Nat → Nat} {write : Nat → BitVec 64 → Option Write} {r : Nat → BitVec 64} (n : Nat) :
    (∀ k ≤ n, r k = value events write (r 0) k) ↔ ∀ k < n, r (k + 1) = advance (events k) (write k (r k)) (r k) := by
  constructor
  · intro h k hk
    rw [h (k + 1) hk, value, ← h k (Nat.le_of_lt hk)]
  · intro h k hk
    induction k with
    | zero => rfl
    | succ k ih => rw [h k hk, value, ← ih (Nat.le_of_succ_le hk)]

/-- A sequence whose steps take the carry along is that of the counter just when the low half is never written while it
carries. -/
theorem value_iff_of_ripple (events : Nat → Nat) (write : Nat → BitVec 64 → Option Write) {r : Nat → BitVec 64}
    (hlt : ∀ n, events n < 2 ^ 32) (hr : ∀ n, r (n + 1) = ripple (events n) (write n (r n)) (r n)) (n : Nat) :
    (∀ k ≤ n, r k = value events write (r 0) k) ↔ ∀ k < n, ¬ Overwrites (events k) (write k (r k)) (r k) := by
  rw [value_iff]
  refine forall₂_congr fun k _ => ?_
  rw [hr, ripple_eq_advance_iff (hlt k)]

end SplitCounter

end SocRV
