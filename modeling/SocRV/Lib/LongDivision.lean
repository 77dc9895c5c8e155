import Mathlib.Algebra.Group.Int.Defs
import Mathlib.Algebra.Group.Nat.Defs
import Mathlib.Tactic.Common

/-!
# Binary long division

The dividend is taken in digit by digit, the highest first.  After each digit there is a remainder and a quotient of as
many digits.  A non-restoring divider keeps the remainder less the divisor when the last digit of the quotient is 0, and
makes up for it in the next step.  A divisor of 0 is never too large: the remainder is then what has been taken in, and
the quotient all ones.
-/

namespace SocRV

namespace LongDivision

/-- Digit `c` of a number of `n` binary digits, counted from the highest. -/
def digit (d n c : Nat) : Nat := d / 2 ^ (n - 1 - c) % 2

/-- The remainder and the quotient after one more digit. -/
def step (m b : Nat) (p : Nat × Nat) : Nat × Nat :=
  if 2 * p.1 + b < m then (2 * p.1 + b, 2 * p.2) else (2 * p.1 + b - m, 2 * p.2 + 1)

/-- The remainder and the quotient after the first `c` digits. -/
def after (m d n : Nat) : Nat → Nat × Nat
  | 0 => (0, 0)
  | c + 1 => step m (digit d n c) (after m d n c)

/-- The remainder after the first `c` digits. -/
def rem (m d n c : Nat) : Nat := (after m d n c).1

/-- The quotient after the first `c` digits. -/
def quot (m d n c : Nat) : Nat := (after m d n c).2

/-- What a non-restoring divider keeps of the remainder. -/
def kept (m d n c : Nat) : Int := if quot m d n c % 2 = 1 then rem m d n c else rem m d n c - m

variable {m d n c : Nat}

theorem digit_lt (d n c : Nat) : digit d n c < 2 := Nat.mod_lt _ (by omega)

/-- One digit: double, and subtract the divisor if it fits. -/
theorem step_eq (m b : Nat) (p : Nat × Nat) :
    step m b p = if 2 * p.1 + b < m then (2 * p.1 + b, 2 * p.2) else (2 * p.1 + b - m, 2 * p.2 + 1) := rfl

/-- The remainder after one more digit. -/
theorem rem_succ : rem m d n (c + 1) =
    if 2 * rem m d n c + digit d n c < m then 2 * rem m d n c + digit d n c
    else 2 * rem m d n c + digit d n c - m := by
  unfold rem
  rw [after, step_eq]
  split_ifs <;> rfl

/-- The quotient after one more digit. -/
theorem quot_succ : quot m d n (c + 1) =
    if 2 * rem m d n c + digit d n c < m then 2 * quot m d n c else 2 * quot m d n c + 1 := by
  unfold quot rem
  rw [after, step_eq]
  split_ifs <;> rfl

/-- The remainder is less than the divisor. -/
theorem rem_lt (hm : 0 < m) : rem m d n c < m := by
  induction c with
  | zero => exact hm
  | succ c ih =>
    have hb := digit_lt d n c
    rw [rem_succ]
    split_ifs <;> omega

theorem quot_lt : quot m d n c < 2 ^ c := by
  induction c with
  | zero => exact Nat.one_pos
  | succ c ih =>
    rw [quot_succ, Nat.pow_succ]
    split_ifs <;> omega

/-- The digits taken in are the quotient times the divisor and the remainder. -/
theorem quot_mul_add_rem (hc : c ≤ n) (hd : d < 2 ^ n) :
    quot m d n c * m + rem m d n c = d / 2 ^ (n - c) := by
  induction c with
  | zero =>
    rw [Nat.sub_zero, Nat.div_eq_of_lt hd]
    exact Nat.zero_mul m
  | succ c ih =>
    have hprev := ih (by omega)
    have hsub : n - c = n - (c + 1) + 1 := by omega
    have hdigit : digit d n c = d / 2 ^ (n - (c + 1)) % 2 := by
      unfold digit
      congr 3
      omega
    have hnext : d / 2 ^ (n - (c + 1)) = 2 * (d / 2 ^ (n - c)) + digit d n c := by
      rw [hdigit, hsub, Nat.pow_succ, ← Nat.div_div_eq_div_mul]
      omega
    rw [hnext, ← hprev, quot_succ, rem_succ]
    split_ifs with hlt
    · rw [Nat.mul_assoc]
      omega
    · rw [Nat.add_mul, Nat.mul_assoc, Nat.one_mul]
      omega

/-- All digits divide the number. -/
theorem quot_eq_div (hm : 0 < m) (hd : d < 2 ^ n) : quot m d n n = d / m := by
  have h := quot_mul_add_rem (m := m) (Nat.le_refl n) hd
  rw [Nat.sub_self, Nat.pow_zero, Nat.div_one] at h
  have hdiv : (quot m d n n * m + rem m d n n) / m = quot m d n n := by
    rw [Nat.mul_comm, Nat.mul_add_div hm, Nat.div_eq_of_lt (rem_lt hm), Nat.add_zero]
  rw [← hdiv, h]

/-- After all digits the remainder is that of the division. -/
theorem rem_eq_mod (hm : 0 < m) (hd : d < 2 ^ n) : rem m d n n = d % m := by
  have h := quot_mul_add_rem (m := m) (Nat.le_refl n) hd
  rw [Nat.sub_self, Nat.pow_zero, Nat.div_one] at h
  have hmod : (quot m d n n * m + rem m d n n) % m = rem m d n n := by
    rw [Nat.mul_comm, Nat.mul_add_mod, Nat.mod_eq_of_lt (rem_lt hm)]
  rw [← hmod, h]

/-- By 0 the quotient is all ones. -/
theorem quot_zero_divisor : quot 0 d n c = 2 ^ c - 1 := by
  induction c with
  | zero => rfl
  | succ c ih =>
    have hpos := Nat.two_pow_pos c
    rw [quot_succ, if_neg (by omega), ih, Nat.pow_succ]
    omega

/-- Division by zero leaves the dividend. -/
theorem rem_zero_divisor (hd : d < 2 ^ n) : rem 0 d n n = d := by
  have h := quot_mul_add_rem (m := 0) (Nat.le_refl n) hd
  rwa [Nat.sub_self, Nat.pow_zero, Nat.div_one, Nat.mul_zero, Nat.zero_add] at h

/-- While the digits taken in are less than the divisor the quotient is 0. -/
theorem of_prefix_lt (hc : c ≤ n) (hd : d < 2 ^ n) (h : d / 2 ^ (n - c) < m) :
    quot m d n c = 0 ∧ rem m d n c = d / 2 ^ (n - c) := by
  have heq := quot_mul_add_rem (m := m) hc hd
  have hq : quot m d n c = 0 := by
    by_contra hq
    have hmul : 1 * m ≤ quot m d n c * m := Nat.mul_le_mul_right m (Nat.pos_of_ne_zero hq)
    omega
  rw [hq, Nat.zero_mul, Nat.zero_add] at heq
  exact ⟨hq, heq⟩

/-- The last digit of the quotient says whether the divisor fitted. -/
theorem quot_succ_odd : quot m d n (c + 1) % 2 = 1 ↔ m ≤ 2 * rem m d n c + digit d n c := by
  rw [quot_succ]
  split_ifs <;> omega

/-- What is kept after a digit is the remainder with the digit behind it, less the divisor. -/
theorem kept_succ : kept m d n (c + 1) = 2 * rem m d n c + digit d n c - m := by
  unfold kept
  have hodd := quot_succ_odd (m := m) (d := d) (n := n) (c := c)
  rw [rem_succ]
  by_cases h : 2 * rem m d n c + digit d n c < m
  · rw [if_neg (by rw [hodd]; omega), if_pos h]
    omega
  · rw [if_pos (by rw [hodd]; omega), if_neg h]
    omega

/-- One step of a non-restoring divider: the divisor is subtracted if it fitted before, else added. -/
theorem kept_step : kept m d n (c + 1) =
    2 * kept m d n c + digit d n c + if quot m d n c % 2 = 1 then -(m : Int) else m := by
  rw [kept_succ, kept]
  split_ifs <;> omega

/-- What is kept is negative exactly if the divisor did not fit. -/
theorem kept_neg_iff : kept m d n (c + 1) < 0 ↔ quot m d n (c + 1) % 2 = 0 := by
  have hodd := quot_succ_odd (m := m) (d := d) (n := n) (c := c)
  rw [kept_succ]
  omega

/-- The quotient with one more digit. -/
theorem quot_succ_eq : quot m d n (c + 1) = 2 * quot m d n c + if kept m d n (c + 1) < 0 then 0 else 1 := by
  rw [quot_succ, kept_succ]
  split_ifs <;> omega

/-- What is kept is no larger than the operands. -/
theorem kept_bounds {b : Nat} (hc : c ≤ n) (hd : d < 2 ^ n) (hdb : d < b) (hm : m ≤ b) :
    -(b : Int) ≤ kept m d n c ∧ kept m d n c < b := by
  have hrem : rem m d n c < b := by
    by_cases hm0 : 0 < m
    · exact Nat.lt_of_lt_of_le (rem_lt hm0) hm
    · have heq := quot_mul_add_rem (m := m) hc hd
      rw [Nat.eq_zero_of_not_pos hm0, Nat.mul_zero, Nat.zero_add] at heq
      rw [Nat.eq_zero_of_not_pos hm0, heq]
      exact Nat.lt_of_le_of_lt (Nat.div_le_self _ _) hdb
  unfold kept
  split_ifs <;> omega

/-! ## The register of the dividend and the quotient -/

/-- A register of `w + 1` bits with the digits to come above a quotient of `c` digits. -/
theorem window_eq {w q : Nat} (hc : c ≤ w) :
    d * 2 ^ c % 2 ^ (w + 1) + q = d % 2 ^ (w - c + 1) * 2 ^ c + q := by
  have hpow : 2 ^ (w + 1) = 2 ^ (w - c + 1) * 2 ^ c := by
    rw [← Nat.pow_add]
    congr 1
    omega
  rw [hpow, Nat.mul_mod_mul_right]

/-- Its highest bit is the next digit. -/
theorem window_top {w q : Nat} (hc : c ≤ w) (hq : q < 2 ^ c) :
    (d * 2 ^ c % 2 ^ (w + 1) + q) / 2 ^ w = digit d (w + 1) c := by
  have hpow : 2 ^ w = 2 ^ c * 2 ^ (w - c) := by
    rw [← Nat.pow_add]
    congr 1
    omega
  have hdig : digit d (w + 1) c = d / 2 ^ (w - c) % 2 := by
    unfold digit
    congr 3
  rw [window_eq hc, hpow, ← Nat.div_div_eq_div_mul, Nat.add_comm, Nat.add_mul_div_right _ _ (Nat.two_pow_pos c),
    Nat.div_eq_of_lt hq, Nat.zero_add, Nat.pow_succ, Nat.mod_mul_right_div_self, hdig]

/-- Shifted by one it is the register for one digit more. -/
theorem window_next {w q : Nat} (hc : c ≤ w) (hq : q < 2 ^ c) :
    (d * 2 ^ c % 2 ^ (w + 1) + q) % 2 ^ w * 2 = d * 2 ^ (c + 1) % 2 ^ (w + 1) + 2 * q := by
  have hpow : 2 ^ w = 2 ^ (w - c) * 2 ^ c := by
    rw [← Nat.pow_add]
    congr 1
    omega
  have hpow' : 2 ^ (w + 1) = 2 ^ (w - c) * 2 ^ (c + 1) := by
    rw [← Nat.pow_add]
    congr 1
    omega
  have hlt : d % 2 ^ (w - c) * 2 ^ c + q < 2 ^ (w - c) * 2 ^ c := by
    have hmod : d % 2 ^ (w - c) + 1 ≤ 2 ^ (w - c) := Nat.mod_lt _ (Nat.two_pow_pos _)
    have hmul := Nat.mul_le_mul_right (2 ^ c) hmod
    rw [Nat.succ_mul] at hmul
    omega
  have hlow : (d % 2 ^ (w - c + 1) * 2 ^ c + q) % (2 ^ (w - c) * 2 ^ c) = d % 2 ^ (w - c) * 2 ^ c + q := by
    have hmod : d % 2 ^ (w - c) = d % 2 ^ (w - c + 1) % 2 ^ (w - c) := by
      rw [Nat.pow_succ, Nat.mod_mul_right_mod]
    have hsplit := Nat.div_add_mod (d % 2 ^ (w - c + 1)) (2 ^ (w - c))
    rw [← hmod] at hsplit
    rw [← hsplit, Nat.add_mul, Nat.add_assoc, Nat.mul_assoc, Nat.mul_comm _ (2 ^ c), ← Nat.mul_assoc,
      Nat.mul_add_mod, Nat.mod_eq_of_lt hlt]
  rw [window_eq hc, hpow, hlow, hpow', Nat.mul_mod_mul_right, Nat.pow_succ, ← Nat.mul_assoc, Nat.add_mul,
    Nat.mul_comm q 2]

end LongDivision

end SocRV
