import Mathlib.Algebra.Group.Nat.Defs
import Mathlib.Data.Set.BooleanAlgebra
import Mathlib.Data.Set.Disjoint
import Mathlib.Order.CompletePartialOrder
import Mathlib.Tactic.Common

/-!
# Byte memory

A 32-bit address space of bytes with little-endian words.  Addresses wrap, so whether a byte belongs to a word
or to a block of words is decided by its distance from the start, `(b - a).toNat`.  A block of words written
slot by slot is one list of slots and values, and what can be read back from it depends on the list alone.
-/

namespace SocRV

/-- The bytes of a 32-bit address space. -/
abbrev ByteMemory := BitVec 32 → BitVec 8

namespace ByteMemory

/-- The four bytes of the word at `a`. -/
def word (a : BitVec 32) : Set (BitVec 32) := {b | (b - a).toNat < 4}

/-- An address is in a word when it is less than four bytes behind its start. -/
theorem mem_word {a b : BitVec 32} : b ∈ word a ↔ (b - a).toNat < 4 := Iff.rfl

/-- The little-endian word at `a`. -/
def loadWord (m : ByteMemory) (a : BitVec 32) : BitVec 32 := m (a + 3#32) ++ m (a + 2#32) ++ m (a + 1#32) ++ m (a + 0#32)

/-- Write the word `w` at `a`. -/
def storeWord (m : ByteMemory) (a w : BitVec 32) : ByteMemory := fun b =>
  if (b - a).toNat < 4 then w.extractLsb' (8 * (b - a).toNat) 8 else m b

variable {m m' : ByteMemory} {a b w : BitVec 32}

/-- A store leaves every byte outside its word. -/
theorem storeWord_of_not_mem (h : b ∉ word a) : m.storeWord a w b = m b := if_neg h

/-- An offset below the size of the address space is read back. -/
theorem sub_add_toNat {k : Nat} (hk : k < 2 ^ 32) : (a + BitVec.ofNat 32 k - a).toNat = k := by
  simp only [BitVec.toNat_sub, BitVec.toNat_add, BitVec.toNat_ofNat]
  omega

/-- The byte `k` of a word belongs to it. -/
theorem add_mem_word {k : Nat} (hk : k < 4) : a + BitVec.ofNat 32 k ∈ word a := by
  show (a + BitVec.ofNat 32 k - a).toNat < 4
  rw [sub_add_toNat (by omega)]
  exact hk

/-- A load depends on the bytes of its word only. -/
theorem loadWord_congr (h : ∀ b ∈ word a, m b = m' b) : m.loadWord a = m'.loadWord a := by
  unfold loadWord
  rw [h _ (add_mem_word (by omega)), h _ (add_mem_word (by omega)), h _ (add_mem_word (by omega)),
    h _ (add_mem_word (by omega))]

/-- The byte `k` of a stored word. -/
theorem storeWord_byte {k : Nat} (hk : k < 4) :
    m.storeWord a w (a + BitVec.ofNat 32 k) = w.extractLsb' (8 * k) 8 := by
  unfold storeWord
  rw [sub_add_toNat (by omega), if_pos hk]

/-- A word is its four bytes, put together. -/
theorem extract_bytes (w : BitVec 32) :
    w.extractLsb' (8 * 3) 8 ++ w.extractLsb' (8 * 2) 8 ++ w.extractLsb' (8 * 1) 8 ++ w.extractLsb' (8 * 0) 8 = w := by
  ext i hi
  simp only [BitVec.getElem_append, BitVec.getElem_extractLsb']
  split_ifs <;> rw [← BitVec.getLsbD_eq_getElem hi] <;> congr 1 <;> omega

/-- What is read at `a` after a store at `a` is the word stored. -/
theorem loadWord_storeWord : (m.storeWord a w).loadWord a = w := by
  unfold loadWord
  rw [storeWord_byte (by omega), storeWord_byte (by omega), storeWord_byte (by omega), storeWord_byte (by omega)]
  exact extract_bytes w

/-- The byte `k` of a loaded word. -/
theorem loadWord_byte {k : Nat} (hk : k < 4) :
    (m.loadWord a).extractLsb' (8 * k) 8 = m (a + BitVec.ofNat 32 k) := by
  unfold loadWord
  ext i hi
  simp only [BitVec.getElem_extractLsb', BitVec.getLsbD_append]
  rw [← BitVec.getLsbD_eq_getElem hi]
  obtain rfl | rfl | rfl | rfl : k = 0 ∨ k = 1 ∨ k = 2 ∨ k = 3 := by omega
  all_goals
    split_ifs <;> first | omega | (congr 1; omega)

/-- Storing the word that is there changes nothing. -/
theorem storeWord_loadWord (h : m.loadWord a = w) : m.storeWord a w = m := by
  subst h
  funext b
  by_cases hb : (b - a).toNat < 4
  · have hba : a + BitVec.ofNat 32 (b - a).toNat = b := by
      rw [BitVec.ofNat_toNat, BitVec.setWidth_eq, BitVec.add_comm, BitVec.sub_add_cancel]
    rw [← hba, storeWord_byte hb, loadWord_byte hb]
  · exact storeWord_of_not_mem hb

/-- A load sees nothing of a store to another word. -/
theorem loadWord_storeWord_of_disjoint (h : Disjoint (word a) (word b)) :
    (m.storeWord b w).loadWord a = m.loadWord a :=
  loadWord_congr fun _ hc => storeWord_of_not_mem (Set.disjoint_left.mp h hc)

/-! ## Blocks of words -/

/-- The address of word `k` of the block at `base`. -/
def slot (base : BitVec 32) (k : Nat) : BitVec 32 := base + BitVec.ofNat 32 (4 * k)

/-- Write words of the block at `base`, in the order of the list. -/
def storeSlots (m : ByteMemory) (base : BitVec 32) (l : List (Nat × BitVec 32)) : ByteMemory :=
  l.foldl (fun m p => m.storeWord (slot base p.1) p.2) m

variable {base : BitVec 32} {k n : Nat} {l l' : List (Nat × BitVec 32)}

/-- The bytes of a slot are those of its four addresses. -/
theorem mem_word_slot (hk : k < 2 ^ 16) :
    b ∈ word (slot base k) ↔ 4 * k ≤ (b - base).toNat ∧ (b - base).toNat < 4 * k + 4 := by
  show (b - (base + BitVec.ofNat 32 (4 * k))).toNat < 4 ↔ _
  have hb := b.isLt
  have hbase := base.isLt
  simp only [BitVec.toNat_sub, BitVec.toNat_add, BitVec.toNat_ofNat]
  omega

/-- Different slots of a block have no byte in common. -/
theorem disjoint_slots {j : Nat} (hj : j < 2 ^ 16) (hk : k < 2 ^ 16) (hne : j ≠ k) :
    Disjoint (word (slot base j)) (word (slot base k)) := by
  rw [Set.disjoint_left]
  intro b h1 h2
  rw [mem_word_slot hj] at h1
  rw [mem_word_slot hk] at h2
  omega

theorem slot_zero (a : BitVec 32) : slot a 0 = a := BitVec.add_zero a

theorem slot_slot (a : BitVec 32) (j k : Nat) : slot (slot a j) k = slot a (j + k) := by
  unfold slot
  rw [BitVec.add_assoc, ← BitVec.ofNat_add]
  congr 2
  omega

/-- A block inside a block. -/
theorem storeSlots_slot (m : ByteMemory) (a : BitVec 32) (j : Nat) (l : List (Nat × BitVec 32)) :
    m.storeSlots (slot a j) l = m.storeSlots a (l.map fun p => (j + p.1, p.2)) := by
  simp only [storeSlots, List.foldl_map, slot_slot]

theorem storeSlots_append : m.storeSlots base (l ++ l') = (m.storeSlots base l).storeSlots base l' :=
  List.foldl_append ..

/-- A block written below slot `n` leaves every byte from there on. -/
theorem storeSlots_of_le (hl : ∀ p ∈ l, p.1 < n) (hn : n ≤ 2 ^ 16) (hb : 4 * n ≤ (b - base).toNat) :
    m.storeSlots base l b = m b := by
  induction l generalizing m with
  | nil => rfl
  | cons p l ih =>
    have hp : p.1 < n := hl p (List.mem_cons_self ..)
    have hrest := ih (m := m.storeWord (slot base p.1) p.2) fun q hq => hl q (List.mem_cons_of_mem _ hq)
    refine hrest.trans (storeWord_of_not_mem fun hmem => ?_)
    rw [mem_word_slot (by omega)] at hmem
    omega

/-- A slot that is not written keeps its word. -/
theorem loadWord_storeSlots_of_not_mem (hl : ∀ p ∈ l, p.1 < 2 ^ 16) (hk : k < 2 ^ 16)
    (hnot : k ∉ l.map Prod.fst) : (m.storeSlots base l).loadWord (slot base k) = m.loadWord (slot base k) := by
  induction l generalizing m with
  | nil => rfl
  | cons p l ih =>
    rw [List.map_cons, List.mem_cons, not_or] at hnot
    have hrest := ih (m := m.storeWord (slot base p.1) p.2) (fun q hq => hl q (List.mem_cons_of_mem _ hq)) hnot.2
    exact hrest.trans
      (loadWord_storeWord_of_disjoint (disjoint_slots hk (hl p (List.mem_cons_self ..)) hnot.1))

/-- What is read from a slot of a block is what was written to it. -/
theorem loadWord_storeSlots (hl : ∀ p ∈ l, p.1 < 2 ^ 16) (hnd : (l.map Prod.fst).Nodup) (hmem : (k, w) ∈ l) :
    (m.storeSlots base l).loadWord (slot base k) = w := by
  induction l generalizing m with
  | nil => cases hmem
  | cons p l ih =>
    rw [List.map_cons, List.nodup_cons] at hnd
    have hl' : ∀ q ∈ l, q.1 < 2 ^ 16 := fun q hq => hl q (List.mem_cons_of_mem _ hq)
    rcases List.mem_cons.mp hmem with rfl | hmem
    · have hk : k < 2 ^ 16 := hl (k, w) (List.mem_cons_self ..)
      exact (loadWord_storeSlots_of_not_mem hl' hk hnd.1).trans loadWord_storeWord
    · exact ih hl' hnd.2 hmem

end ByteMemory

end SocRV
