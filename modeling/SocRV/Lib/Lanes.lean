import Mathlib.Algebra.Group.Nat.Defs
import Mathlib.Tactic.Common

/-!
# Byte lanes of a word

A 32-bit word as four bytes and a byte enable as four bits, built from and read by lane.
-/

namespace SocRV

/-- Byte `j` of a word. -/
def lane (w : BitVec 32) (j : Nat) : BitVec 8 := w.extractLsb' (8 * j) 8

/-- The word with the given bytes. -/
def ofLanes (f : Nat → BitVec 8) : BitVec 32 := f 3 ++ f 2 ++ f 1 ++ f 0

/-- The byte enable with the given bits. -/
def ofEnables (f : Nat → Bool) : BitVec 4 :=
  BitVec.ofBool (f 3) ++ BitVec.ofBool (f 2) ++ BitVec.ofBool (f 1) ++ BitVec.ofBool (f 0)

/-- A word of four lanes has each of them. -/
theorem lane_ofLanes (f : Nat → BitVec 8) {j : Nat} (hj : j < 4) : lane (ofLanes f) j = f j := by
  unfold lane ofLanes
  ext i hi
  simp only [BitVec.getElem_extractLsb', BitVec.getLsbD_append]
  rw [← BitVec.getLsbD_eq_getElem hi]
  obtain rfl | rfl | rfl | rfl : j = 0 ∨ j = 1 ∨ j = 2 ∨ j = 3 := by omega
  all_goals
    split_ifs <;> first | omega | (congr 1; omega)

/-- Byte enables have the bit of each lane. -/
theorem getLsbD_ofEnables (f : Nat → Bool) {j : Nat} (hj : j < 4) : (ofEnables f).getLsbD j = f j := by
  unfold ofEnables
  obtain rfl | rfl | rfl | rfl : j = 0 ∨ j = 1 ∨ j = 2 ∨ j = 3 := by omega
  all_goals
    simp only [BitVec.getLsbD_append, BitVec.getLsbD_ofBool]
    simp

/-- Words are equal when their bytes are. -/
theorem eq_of_lanes {v w : BitVec 32} (h : ∀ j < 4, lane v j = lane w j) : v = w := by
  ext i hi
  have hbit := congrArg (fun x : BitVec 8 => x.getLsbD (i % 8)) (h (i / 8) (by omega))
  simp only [lane, BitVec.getLsbD_extractLsb'] at hbit
  have hmod : i % 8 < 8 := Nat.mod_lt _ (by omega)
  have hsum : 8 * (i / 8) + i % 8 = i := Nat.div_add_mod i 8
  rw [hsum] at hbit
  simpa [hmod, ← BitVec.getLsbD_eq_getElem hi] using hbit

end SocRV
