import Mathlib.Algebra.Group.Nat.Defs
import Mathlib.Tactic.Common

/-!
# Multiplexers without a decoder

A value is selected from a list of sources by gating each with its own select line and joining the results.  This is the
value of the selected source as long as no two lines are up at once.
-/

namespace SocRV

section AndOr

variable {α : Type} {w : Nat}

/-- The sources, gated by their select lines and joined. -/
def andOr (l : List (Bool × BitVec w)) : BitVec w :=
  l.foldr (fun x acc => (if x.1 then x.2 else 0#w) ||| acc) 0#w

/-- No two select lines are up at once. -/
def AtMostOne (l : List (Bool × α)) : Prop :=
  l.Pairwise fun x y => x.1 = true → y.1 = false

instance (l : List (Bool × α)) : Decidable (AtMostOne l) :=
  inferInstanceAs (Decidable (l.Pairwise _))

/-- Behind a selected source no other is selected. -/
theorem AtMostOne.getElem {l : List (Bool × α)} (h : AtMostOne l) {j k : Nat} (hk : k < l.length) (hjk : j < k)
    (hj : l[j].1 = true) : l[k].1 = false :=
  List.pairwise_iff_getElem.mp h j k (Nat.lt_trans hjk hk) hk hjk hj

variable {l : List (Bool × BitVec w)} {v : BitVec w}

/-- Without a selected source the value is 0. -/
theorem andOr_of_none (h : ∀ x ∈ l, x.1 = false) : andOr l = 0#w := by
  induction l with
  | nil => rfl
  | cons x l ih =>
    have hx := h x List.mem_cons_self
    have hl := ih fun y hy => h y (List.mem_cons_of_mem x hy)
    unfold andOr at hl ⊢
    rw [List.foldr_cons, hl, hx, if_neg Bool.false_ne_true, BitVec.or_self]

/-- With at most one selected source the value is that of the selected one. -/
theorem andOr_of_mem (h : AtMostOne l) (hm : (true, v) ∈ l) : andOr l = v := by
  induction l with
  | nil => exact absurd hm List.not_mem_nil
  | cons x l ih =>
    obtain ⟨hx, hl⟩ := List.pairwise_cons.mp h
    rcases List.mem_cons.mp hm with rfl | hm
    · have hrest := andOr_of_none (l := l) fun y hy => hx y hy rfl
      unfold andOr at hrest ⊢
      rw [List.foldr_cons, hrest, if_pos rfl, BitVec.or_zero]
    · have hno : x.1 = false := by
        by_contra hsel
        rw [Bool.not_eq_false] at hsel
        have hother : true = false := hx (true, v) hm hsel
        exact absurd hother.symm Bool.false_ne_true
      have hrest := ih hl hm
      unfold andOr at hrest ⊢
      rw [List.foldr_cons, hrest, hno, if_neg Bool.false_ne_true, BitVec.zero_or]

end AndOr

end SocRV
