import Mathlib.Algebra.Group.Nat.Defs
import Mathlib.Tactic.Common

/-!
# Counters

A counter that goes up by at most one a step: it passes every value on its way, each of them once.  In a register, a
counter that is not zero goes down without wrapping.
-/

namespace SocRV

/-- The counter starts at zero, never goes down and goes up by at most one a step. -/
structure Counts (f : Nat → Nat) : Prop where
  zero : f 0 = 0
  up : ∀ t, f t ≤ f (t + 1)
  step : ∀ t, f (t + 1) ≤ f t + 1

namespace Counts

variable {f : Nat → Nat} (h : Counts f)

include h

/-- The counter never goes down. -/
theorem mono {s t : Nat} (hst : s ≤ t) : f s ≤ f t := by
  induction hst with
  | refl => exact Nat.le_refl _
  | step _ ih => exact Nat.le_trans ih (h.up _)

/-- A value below the counter was passed. -/
theorem exists_step {k t : Nat} (ht : k < f t) : ∃ s, s < t ∧ f s = k ∧ f (s + 1) = k + 1 := by
  induction t with
  | zero =>
    rw [h.zero] at ht
    exact absurd ht (Nat.not_lt_zero k)
  | succ t ih =>
    by_cases hk : k < f t
    · obtain ⟨s, hs, hval⟩ := ih hk
      exact ⟨s, Nat.lt_succ_of_lt hs, hval⟩
    · have hstep := h.step t
      exact ⟨t, Nat.lt_succ_self t, by omega, by omega⟩

/-- It is passed once. -/
theorem step_unique {k s t : Nat} (hs : f s = k) (hs' : f (s + 1) = k + 1) (ht : f t = k)
    (ht' : f (t + 1) = k + 1) : s = t := by
  rcases Nat.lt_trichotomy s t with hlt | heq | hgt
  · have hmono : f (s + 1) ≤ f t := h.mono hlt
    omega
  · exact heq
  · have hmono : f (t + 1) ≤ f s := h.mono hgt
    omega

end Counts

/-! ## Counters in registers -/

/-- A counter that is not zero loses one. -/
theorem toNat_pred {w : Nat} (x : BitVec (w + 1)) (hx : x.toNat ≠ 0) : (x - 1).toNat = x.toNat - 1 := by
  have hone : (1 : BitVec (w + 1)).toNat = 1 := BitVec.toNat_one (Nat.succ_pos w)
  rw [BitVec.toNat_sub_of_le (by rw [BitVec.le_def, hone]; omega), hone]

/-- A register is zero when its value is. -/
theorem toNat_beq_zero {w : Nat} (x : BitVec w) : (x == 0) = decide (x.toNat = 0) := by
  rw [Bool.eq_iff_iff, beq_iff_eq, decide_eq_true_eq, ← BitVec.toNat_inj]
  rfl

/-- A counter that is not at its limit stays within it. -/
theorem count_le {w : Nat} {x y : BitVec w} (hle : x ≤ y) (hne : x ≠ y) : x + 1 ≤ y := by
  have hlt : x.toNat < y.toNat := Nat.lt_of_le_of_ne hle fun h => hne (BitVec.eq_of_toNat_eq h)
  have hone : (1 : BitVec w).toNat ≤ 1 := Nat.mod_le 1 (2 ^ w)
  rw [BitVec.le_def, BitVec.toNat_add]
  exact Nat.le_trans (Nat.mod_le _ _) (by omega)

/-- A counter below its limit stays below it, unless it is the last value before. -/
theorem count_lt {w : Nat} {x y : BitVec w} (hlt : x < y) (hne : x ≠ y - 1) : x + 1 < y := by
  have hneq : x + 1 ≠ y := fun h => hne (BitVec.eq_sub_iff_add_eq.mpr h)
  have hle : x + 1 ≤ y := count_le (Nat.le_of_lt hlt) fun h => Nat.lt_irrefl _ (h ▸ hlt)
  exact Nat.lt_of_le_of_ne hle fun h => hneq (BitVec.eq_of_toNat_eq h)

end SocRV
