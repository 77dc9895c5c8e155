import Mathlib.Algebra.Group.Nat.Defs
import Mathlib.Data.List.Basic
import Mathlib.Tactic.Common

/-!
# Ring buffers

A first-in first-out queue in `2 ^ k` slots with a read and a write pointer that wrap.  `Holds` says which list
the slots between the pointers hold and that the slots outside are free; each operation on the slots is an
operation on the list.  One slot stays free, so the pointers tell the length.  `Spans` is for rings in which every
slot may be in use and the length is counted apart from the pointers.
-/

namespace SocRV

namespace Ring

variable {α : Type*} {k : Nat} {free : α → Prop} {slot : BitVec k → α} {rd wr : BitVec k} {q : List α} {e : α}

/-- The slots from `rd` up to `wr` hold the list `q`, and the others are free. -/
structure Holds (free : α → Prop) (slot : BitVec k → α) (rd wr : BitVec k) (q : List α) : Prop where
  length : q.length = (wr - rd).toNat
  get : ∀ n (hn : n < q.length), slot (rd + BitVec.ofNat k n) = q[n]
  idle : ∀ i : BitVec k, q.length ≤ (i - rd).toNat → free (slot i)

/-- A distance below the size of the ring is read back. -/
theorem add_sub_toNat {n : Nat} (hn : n < 2 ^ k) : (rd + BitVec.ofNat k n - rd).toNat = n := by
  rw [BitVec.add_comm, BitVec.add_sub_cancel, BitVec.toNat_ofNat, Nat.mod_eq_of_lt hn]

/-- A slot is given by its distance from the read pointer. -/
theorem add_sub_self (rd i : BitVec k) : rd + BitVec.ofNat k (i - rd).toNat = i := by
  rw [BitVec.ofNat_toNat, BitVec.setWidth_eq, BitVec.add_comm, BitVec.sub_add_cancel]

/-- Moving the read pointer brings every other slot one closer. -/
theorem sub_succ_toNat {i : BitVec k} (hi : i ≠ rd) : (i - (rd + 1)).toNat + 1 = (i - rd).toNat := by
  have hpos : (i - rd).toNat ≠ 0 := fun h0 => hi (by
    rw [← add_sub_self rd i, h0]
    simp)
  have hone : (1 : BitVec k) = BitVec.ofNat k 1 := rfl
  have hsub : i - (rd + 1) = BitVec.ofNat k ((i - rd).toNat - 1) := by
    have hi' : i = rd + 1 + BitVec.ofNat k ((i - rd).toNat - 1) := by
      rw [hone, BitVec.add_assoc, ← BitVec.ofNat_add, Nat.add_comm, Nat.sub_add_cancel (Nat.pos_of_ne_zero hpos),
        add_sub_self]
    conv_lhs => rw [hi']
    rw [BitVec.add_comm, BitVec.add_sub_cancel]
  have hisLt := (i - rd).isLt
  rw [hsub, BitVec.toNat_ofNat, Nat.mod_eq_of_lt (by omega)]
  omega

namespace Holds

theorem length_lt (h : Holds free slot rd wr q) : q.length < 2 ^ k := by
  rw [h.length]
  exact (wr - rd).isLt

/-- The slot at a distance below the length. -/
theorem slot_eq (h : Holds free slot rd wr q) {i : BitVec k} (hi : (i - rd).toNat < q.length) :
    slot i = q[(i - rd).toNat] := by
  rw [← h.get _ hi, add_sub_self]

/-- The write pointer is the read pointer moved by the length. -/
theorem wr_eq (h : Holds free slot rd wr q) : wr = rd + BitVec.ofNat k q.length := by
  rw [h.length, add_sub_self]

/-- What is true of no free slot is true of some slot when it is true of some element. -/
theorem exists_slot {P : α → Prop} (h : Holds free slot rd wr q) (hP : ∀ x, free x → ¬P x) :
    (∃ i, P (slot i)) ↔ ∃ x ∈ q, P x := by
  constructor
  · rintro ⟨i, hi⟩
    by_cases hlt : (i - rd).toNat < q.length
    · rw [h.slot_eq hlt] at hi
      exact ⟨_, List.getElem_mem hlt, hi⟩
    · exact absurd hi (hP _ (h.idle i (Nat.le_of_not_lt hlt)))
  · rintro ⟨x, hx, hPx⟩
    obtain ⟨n, hn, rfl⟩ := List.mem_iff_getElem.mp hx
    refine ⟨rd + BitVec.ofNat k n, ?_⟩
    rw [h.get n hn]
    exact hPx

/-- A slot in use fulfils what every element fulfils. -/
theorem slot_mem (h : Holds free slot rd wr q) {i : BitVec k} (hi : (i - rd).toNat < q.length) : slot i ∈ q := by
  rw [h.slot_eq hi]
  exact List.getElem_mem hi

/-- Append at the write pointer. -/
theorem push (h : Holds free slot rd wr q) (hlen : q.length + 1 < 2 ^ k) (g : α → α) :
    Holds free (fun i => if i = wr then g (slot i) else slot i) rd (wr + 1) (q ++ [g (slot wr)]) := by
  have hwr : (wr - rd).toNat = q.length := h.length.symm
  refine ⟨?_, fun n hn => ?_, fun i hi => ?_⟩
  · have hone : (1 : BitVec k) = BitVec.ofNat k 1 := rfl
    have hsum : wr + 1 = rd + BitVec.ofNat k (q.length + 1) := by
      rw [h.wr_eq, hone, BitVec.add_assoc, ← BitVec.ofNat_add]
    rw [hsum, add_sub_toNat hlen, List.length_append, List.length_singleton]
  · rw [List.length_append, List.length_singleton] at hn
    by_cases hlast : n = q.length
    · subst hlast
      rw [← h.wr_eq, if_pos rfl, List.getElem_append_right (Nat.le_refl _)]
      simp
    · have hlt : n < q.length := by omega
      have hne : rd + BitVec.ofNat k n ≠ wr := by
        intro heq
        have hdist := congrArg (fun x => (x - rd).toNat) heq
        rw [add_sub_toNat (by omega), hwr] at hdist
        omega
      rw [if_neg hne, h.get n hlt, List.getElem_append_left hlt]
  · rw [List.length_append, List.length_singleton] at hi
    have hne : i ≠ wr := by
      rintro rfl
      omega
    rw [if_neg hne]
    exact h.idle i (by omega)

/-- Free the slot at the read pointer. -/
theorem pop (h : Holds free slot rd wr (e :: q)) {f : α → α} (he : free (f e)) :
    Holds free (fun i => if i = rd then f (slot i) else slot i) (rd + 1) wr q := by
  have hlen := h.length
  have hlt := h.length_lt
  rw [List.length_cons] at hlen hlt
  have hone : (1 : BitVec k) = BitVec.ofNat k 1 := rfl
  have hhead : slot rd = e := by
    have h0 := h.get 0 (by simp)
    simpa using h0
  refine ⟨?_, fun n hn => ?_, fun i hi => ?_⟩
  · have hwr : wr ≠ rd := by
      rintro rfl
      simp at hlen
    have := sub_succ_toNat hwr
    omega
  · have hn' : n + 1 < (e :: q).length := by simpa using hn
    have hget := h.get (n + 1) hn'
    have hidx : rd + 1 + BitVec.ofNat k n = rd + BitVec.ofNat k (n + 1) := by
      rw [hone, BitVec.add_assoc, ← BitVec.ofNat_add, Nat.add_comm]
    have hne : rd + BitVec.ofNat k (n + 1) ≠ rd := by
      intro heq
      have hd := congrArg (fun x => (x - rd).toNat) heq
      rw [add_sub_toNat (by omega), BitVec.sub_self] at hd
      simp at hd
    rw [hidx, if_neg hne, hget]
    rfl
  · by_cases hi' : i = rd
    · subst hi'
      rw [if_pos rfl, hhead]
      exact he
    · rw [if_neg hi']
      refine h.idle i ?_
      rw [List.length_cons, ← sub_succ_toNat hi']
      omega

/-- Change the element at a known distance from the read pointer. -/
theorem modify {q₁ q₂ : List α} (h : Holds free slot rd wr (q₁ ++ e :: q₂)) {j : BitVec k}
    (hj : (j - rd).toNat = q₁.length) (f : α → α) :
    Holds free (fun i => if i = j then f (slot i) else slot i) rd wr (q₁ ++ f e :: q₂) := by
  have hlt := h.length_lt
  have hj' : rd + BitVec.ofNat k q₁.length = j := by
    rw [← hj, add_sub_self]
  refine ⟨?_, fun n hn => ?_, fun i hi => ?_⟩
  · rw [← h.length]
    simp
  · have hn' : n < (q₁ ++ e :: q₂).length := by simpa using hn
    have hget := h.get n hn'
    by_cases heq : n = q₁.length
    · subst heq
      rw [hj', if_pos rfl]
      rw [hj'] at hget
      rw [hget]
      simp
    · have hne : rd + BitVec.ofNat k n ≠ j := by
        intro hidx
        have hd := congrArg (fun x => (x - rd).toNat) hidx
        rw [add_sub_toNat (by omega), hj] at hd
        exact heq hd
      rw [if_neg hne, hget]
      by_cases hlt₁ : n < q₁.length
      · rw [List.getElem_append_left hlt₁, List.getElem_append_left hlt₁]
      · rw [List.getElem_append_right (by omega), List.getElem_append_right (by omega), List.getElem_cons,
          List.getElem_cons, dif_neg (by omega), dif_neg (by omega)]
  · have hlen : (q₁ ++ f e :: q₂).length = (q₁ ++ e :: q₂).length := by simp
    rw [hlen] at hi
    have hne : i ≠ j := by
      rintro rfl
      rw [hj, List.length_append, List.length_cons] at hi
      omega
    rw [if_neg hne]
    exact h.idle i hi

/-- A pass over all slots that starts at the write pointer and skips free ones visits the list in order. -/
theorem foldl_slots {β : Type*} (h : Holds free slot rd wr q) {f : β → α → β}
    (hf : ∀ x b, free x → f b x = b) (b : β) :
    (List.range (2 ^ k)).foldl (fun b n => f b (slot (wr + BitVec.ofNat k n))) b = q.foldl f b := by
  have hlt := h.length_lt
  obtain ⟨d, hd⟩ : ∃ d, 2 ^ k = d + q.length := ⟨2 ^ k - q.length, by omega⟩
  have hskip : ∀ n ≤ d, (List.range n).foldl (fun b n => f b (slot (wr + BitVec.ofNat k n))) b = b := by
    intro n hn
    induction n with
    | zero => rfl
    | succ n ih =>
      rw [List.range_succ, List.foldl_append, ih (by omega), List.foldl_cons, List.foldl_nil]
      refine hf _ _ (h.idle _ ?_)
      rw [h.wr_eq, BitVec.add_assoc, ← BitVec.ofNat_add, add_sub_toNat (by omega)]
      omega
  have hvisit : ∀ n ≤ q.length, ∀ b : β,
      ((List.range n).map (d + ·)).foldl (fun b n => f b (slot (wr + BitVec.ofNat k n))) b = (q.take n).foldl f b := by
    intro n hn b
    induction n with
    | zero => rfl
    | succ n ih =>
      have hidx : wr + BitVec.ofNat k (d + n) = rd + BitVec.ofNat k n := by
        rw [h.wr_eq, BitVec.add_assoc, ← BitVec.ofNat_add]
        congr 1
        apply BitVec.eq_of_toNat_eq
        rw [BitVec.toNat_ofNat, BitVec.toNat_ofNat, show q.length + (d + n) = n + 2 ^ k by omega, Nat.add_mod_right]
      rw [List.range_succ, List.map_append, List.foldl_append, ih (by omega), List.map_singleton, List.foldl_cons,
        List.foldl_nil, hidx, h.get n (by omega), List.take_succ_eq_append_getElem (by omega), List.foldl_append]
      rfl
  rw [hd, List.range_add, List.foldl_append, hskip d (Nat.le_refl d), hvisit _ (Nat.le_refl _), List.take_length]

end Holds

/-- The slots from `rd` on hold the list `q`, and `wr` is the slot behind it. -/
structure Spans (slot : BitVec k → α) (rd wr : BitVec k) (q : List α) : Prop where
  le : q.length ≤ 2 ^ k
  wr_eq : wr = rd + BitVec.ofNat k q.length
  get : ∀ n (hn : n < q.length), slot (rd + BitVec.ofNat k n) = q[n]

namespace Spans

/-- Equal pointers span nothing. -/
theorem empty (slot : BitVec k → α) (rd : BitVec k) : Spans slot rd rd [] :=
  ⟨Nat.zero_le _, by simp, fun _ hn => absurd hn (Nat.not_lt_zero _)⟩

/-- Move the read pointer on over the oldest elements. -/
theorem drop (h : Spans slot rd wr q) {p : Nat} (hp : p ≤ q.length) :
    Spans slot (rd + BitVec.ofNat k p) wr (q.drop p) := by
  have hlen : (q.drop p).length = q.length - p := List.length_drop
  refine ⟨?_, ?_, fun n hn => ?_⟩
  · have := h.le
    omega
  · rw [h.wr_eq, BitVec.add_assoc, ← BitVec.ofNat_add, hlen, Nat.add_sub_cancel' hp]
  · rw [BitVec.add_assoc, ← BitVec.ofNat_add, h.get (p + n) (by omega), List.getElem_drop]

/-- Write the slot behind the list. -/
theorem snoc (h : Spans slot rd wr q) (hlen : q.length < 2 ^ k) (e : α) :
    Spans (fun i => if i = wr then e else slot i) rd (wr + 1) (q ++ [e]) := by
  refine ⟨?_, ?_, fun n hn => ?_⟩
  · rw [List.length_append, List.length_singleton]
    exact hlen
  · have hone : (1 : BitVec k) = BitVec.ofNat k 1 := rfl
    rw [h.wr_eq, hone, BitVec.add_assoc, ← BitVec.ofNat_add, List.length_append, List.length_singleton]
  · rw [List.length_append, List.length_singleton] at hn
    by_cases hlast : n = q.length
    · subst hlast
      rw [← h.wr_eq, if_pos rfl, List.getElem_append_right (Nat.le_refl _)]
      simp
    · have hlt : n < q.length := by omega
      have hne : rd + BitVec.ofNat k n ≠ wr := by
        intro heq
        have hdist := congrArg (fun x => (x - rd).toNat) heq
        rw [h.wr_eq, add_sub_toNat (by omega), add_sub_toNat hlen] at hdist
        omega
      rw [if_neg hne, h.get n hlt, List.getElem_append_left hlt]

/-- The oldest element is at the read pointer. -/
theorem head (h : Spans slot rd wr q) (hq : 0 < q.length) : slot rd = q[0] := by
  have hget := h.get 0 hq
  rwa [BitVec.add_zero] at hget

/-- A cycle with a push, a pop, both or neither: what is pushed goes to the end, and what is popped is at the read
pointer. -/
theorem cycle (h : Spans slot rd wr q) {push pop : Bool} (e : α) (hroom : push = true → q.length < 2 ^ k)
    (hpos : pop = true → 0 < q.length) :
    ∃ q', Spans (if push then fun i => if i = wr then e else slot i else slot) (if pop then rd + 1 else rd)
        (if push then wr + 1 else wr) q' ∧
      q ++ (if push then [e] else []) = (if pop then [slot rd] else []) ++ q' := by
  have hpush : Spans (if push then fun i => if i = wr then e else slot i else slot) rd (if push then wr + 1 else wr)
      (q ++ if push then [e] else []) := by
    cases hp : push with
    | false => simpa using h
    | true => exact h.snoc (hroom hp) e
  cases hp : pop with
  | false => exact ⟨_, hpush, rfl⟩
  | true =>
    have hlen := hpos hp
    have hhead : q = slot rd :: q.drop 1 := by
      rw [h.head hlen, ← List.drop_eq_getElem_cons hlen, List.drop_zero]
    refine ⟨_, hpush.drop (p := 1) (by rw [List.length_append]; omega), ?_⟩
    rw [List.drop_append_of_le_length hlen]
    conv_lhs => rw [hhead]
    rfl

end Spans

end Ring

end SocRV
