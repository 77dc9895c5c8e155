import Mathlib.Algebra.Group.Nat.Defs
import Mathlib.Data.Nat.Find
import Mathlib.Tactic.Common

/-!
# One request at a time

A server with room for one request.  In any cycle a request may be made, answered or cancelled; a request that is neither
answered nor cancelled stays.  If requests are made only into the empty slot and answers given only from the full one,
then requests and answers belong together one by one.
-/

namespace SocRV

section OneSlot

variable (req resp cancel : Nat → Bool)

/-- The request in the slot at the start of a cycle, named by the cycle in which it was made. -/
def holder : Nat → Option Nat
  | 0 => none
  | n + 1 => if cancel n then none else if req n then some n else if resp n then none else holder n

/-- The request of cycle `k` is answered in cycle `m`, and nothing happened to it before. -/
structure Answers (k m : Nat) : Prop where
  made : req k = true
  lt : k < m
  answer : resp m = true
  first : ∀ j, k < j → j < m → resp j = false
  kept : ∀ j, k < j → j ≤ m → cancel j = false

/-- The request of cycle `k` is cancelled in cycle `m`, and nothing happened to it before. -/
structure Cancels (k m : Nat) : Prop where
  made : req k = true
  lt : k < m
  cancelled : cancel m = true
  first : ∀ j, k < j → j ≤ m → resp j = false
  kept : ∀ j, k < j → j < m → cancel j = false

/-- Requests are made into the empty slot, and answers given from the full one; a cancellation lets neither happen. -/
structure OneAtATime : Prop where
  free : ∀ n, req n = true → holder req resp cancel n = none ∧ cancel n = false
  held : ∀ n, resp n = true → holder req resp cancel n ≠ none ∧ cancel n = false

variable {req resp cancel} {k k' m m' n : Nat}

/-- A request in the slot was made, and has been neither answered nor cancelled. -/
theorem holder_some (h : holder req resp cancel n = some k) :
    req k = true ∧ k < n ∧ ∀ j, k < j → j < n → resp j = false ∧ cancel j = false := by
  induction n with
  | zero => exact absurd h (by simp [holder])
  | succ n ih =>
    rw [holder] at h
    split at h
    · exact absurd h (by simp)
    · rename_i hcancel
      split at h
      · rename_i hreq
        obtain rfl := Option.some.inj h
        exact ⟨hreq, Nat.lt_succ_self _, fun j hj hjn => absurd hj (Nat.not_lt_of_le (Nat.le_of_lt_succ hjn))⟩
      · split at h
        · exact absurd h (by simp)
        · rename_i hresp
          obtain ⟨hreq, hlt, hquiet⟩ := ih h
          refine ⟨hreq, Nat.lt_succ_of_lt hlt, fun j hj hjn => ?_⟩
          rcases Nat.lt_succ_iff_lt_or_eq.mp hjn with hjn | rfl
          · exact hquiet j hj hjn
          · exact ⟨by rwa [Bool.not_eq_true] at hresp, by rwa [Bool.not_eq_true] at hcancel⟩

/-- A request stays until it is answered or cancelled. -/
theorem OneAtATime.holds (h : OneAtATime req resp cancel) (hreq : req k = true) (hlt : k < n)
    (hquiet : ∀ j, k < j → j < n → resp j = false ∧ cancel j = false) : holder req resp cancel n = some k := by
  induction n with
  | zero => exact absurd hlt (Nat.not_lt_zero k)
  | succ n ih =>
    rw [holder]
    rcases Nat.lt_succ_iff_lt_or_eq.mp hlt with hlt | rfl
    · obtain ⟨hresp, hcancel⟩ := hquiet n hlt (Nat.lt_succ_self n)
      have hholder := ih hlt fun j hj hjn => hquiet j hj (Nat.lt_succ_of_lt hjn)
      have hno : req n = false := by
        rw [← Bool.not_eq_true]
        intro hn
        rw [(h.free n hn).1] at hholder
        exact absurd hholder (by simp)
      rw [hcancel, hno, hresp]
      exact hholder
    · rw [(h.free k hreq).2, hreq]
      rfl

/-- An answer answers one request. -/
theorem OneAtATime.answered (h : OneAtATime req resp cancel) (hresp : resp m = true) :
    ∃! k, Answers req resp cancel k m := by
  obtain ⟨hheld, hcancel⟩ := h.held m hresp
  obtain ⟨k, hk⟩ := Option.ne_none_iff_exists'.mp hheld
  obtain ⟨hreq, hlt, hquiet⟩ := holder_some hk
  refine ⟨k, ⟨hreq, hlt, hresp, fun j hj hjm => (hquiet j hj hjm).1, fun j hj hjm => ?_⟩, fun k' hk' => ?_⟩
  · rcases Nat.lt_or_eq_of_le hjm with hjm | rfl
    · exact (hquiet j hj hjm).2
    · exact hcancel
  · have hholder := h.holds hk'.made hk'.lt fun j hj hjm => ⟨hk'.first j hj hjm, hk'.kept j hj (Nat.le_of_lt hjm)⟩
    rw [hk] at hholder
    exact (Option.some.inj hholder).symm

/-- A request is answered once at most. -/
theorem Answers.unique (h : Answers req resp cancel k m) (h' : Answers req resp cancel k m') : m = m' := by
  rcases Nat.lt_trichotomy m m' with hlt | heq | hgt
  · exact absurd ((h'.first m h.lt hlt).symm.trans h.answer) Bool.false_ne_true
  · exact heq
  · exact absurd ((h.first m' h'.lt hgt).symm.trans h'.answer) Bool.false_ne_true

/-- An answered request is not cancelled. -/
theorem Answers.not_cancels (h : Answers req resp cancel k m) : ¬ Cancels req resp cancel k m' := by
  intro h'
  rcases Nat.le_total m m' with hle | hle
  · exact Bool.false_ne_true ((h'.first m h.lt hle).symm.trans h.answer)
  · exact Bool.false_ne_true ((h.kept m' h'.lt hle).symm.trans h'.cancelled)

/-- If something happens to every request in the end, each is answered exactly once or cancelled. -/
theorem OneAtATime.outcome (h : OneAtATime req resp cancel) (hreq : req k = true)
    (hend : ∀ n, holder req resp cancel n = some k → ∃ m ≥ n, resp m = true ∨ cancel m = true) :
    ((∃! m, Answers req resp cancel k m) ∧ ∀ m, ¬ Cancels req resp cancel k m) ∨
      ((∀ m, ¬ Answers req resp cancel k m) ∧ ∃ m, Cancels req resp cancel k m) := by
  have hstart := h.holds hreq (Nat.lt_succ_self k) fun j hj hjk => absurd hj (Nat.not_lt_of_le (Nat.le_of_lt_succ hjk))
  have hex : ∃ m, k < m ∧ (resp m = true ∨ cancel m = true) := hend (k + 1) hstart
  classical
  have hmin : ∀ j, k < j → j < Nat.find hex → resp j = false ∧ cancel j = false := by
    intro j hj hjm
    have hnot := Nat.find_min hex hjm
    rw [not_and, not_or, Bool.not_eq_true, Bool.not_eq_true] at hnot
    exact hnot hj
  obtain ⟨hlt, hresp | hcancel⟩ := Nat.find_spec hex
  · have hanswers : Answers req resp cancel k (Nat.find hex) := by
      refine ⟨hreq, hlt, hresp, fun j hj hjm => (hmin j hj hjm).1, fun j hj hjm => ?_⟩
      rcases Nat.lt_or_eq_of_le hjm with hjm | rfl
      · exact (hmin j hj hjm).2
      · exact (h.held _ hresp).2
    exact Or.inl ⟨⟨_, hanswers, fun m hm => hm.unique hanswers⟩, fun m => hanswers.not_cancels⟩
  · have hcancels : Cancels req resp cancel k (Nat.find hex) := by
      refine ⟨hreq, hlt, hcancel, fun j hj hjm => ?_, fun j hj hjm => (hmin j hj hjm).2⟩
      rcases Nat.lt_or_eq_of_le hjm with hjm | rfl
      · exact (hmin j hj hjm).1
      · rw [← Bool.not_eq_true]
        exact fun hresp => Bool.false_ne_true ((h.held _ hresp).2.symm.trans hcancel)
    exact Or.inr ⟨fun m hm => hm.not_cancels hcancels, _, hcancels⟩

end OneSlot

end SocRV
