import Mathlib.Algebra.Group.Nat.Defs
import Mathlib.Data.List.Basic
import Mathlib.Tactic.Common

/-!
# Memories with writes on top

A write that may leave some addresses alone is a partial function from addresses to values.  A memory with
writes on top reads, at each address, the youngest write that covers it, else the memory below.  A write that
repeats what is below everywhere outside a smaller one may stand for the smaller one.
-/

namespace SocRV

/-- A write: the value it gives to each address it covers. -/
abbrev Overlay (α β : Type*) := α → Option β

namespace Overlay

variable {α β : Type*} {m m' : α → β} {p : Overlay α β} {ps qs : List (Overlay α β)} {a : α}

/-- A memory with a write on top. -/
def laid (m : α → β) (p : Overlay α β) : α → β := fun a => (p a).getD (m a)

/-- A memory with writes on top, oldest first. -/
def laidAll (m : α → β) (ps : List (Overlay α β)) : α → β := ps.foldl laid m

/-- The youngest value given to an address, if any. -/
def latest (ps : List (Overlay α β)) (a : α) : Option β := ps.foldl (fun acc p => (p a).or acc) none

@[simp] theorem laidAll_nil (m : α → β) : laidAll m [] = m := rfl

@[simp] theorem laidAll_cons (m : α → β) (p : Overlay α β) (ps : List (Overlay α β)) :
    laidAll m (p :: ps) = laidAll (laid m p) ps := rfl

theorem laidAll_append (m : α → β) (ps qs : List (Overlay α β)) : laidAll m (ps ++ qs) = laidAll (laidAll m ps) qs :=
  List.foldl_append ..

theorem laidAll_singleton (m : α → β) (p : Overlay α β) : laidAll m [p] = laid m p := rfl

/-- A write on top replaces what it covers and nothing else. -/
theorem laid_of_some {v : β} (h : p a = some v) : laid m p a = v := by
  unfold laid
  rw [h, Option.getD_some]

/-- Where an overlay writes nothing the memory stays. -/
theorem laid_of_none (h : p a = none) : laid m p a = m a := by
  unfold laid
  rw [h, Option.getD_none]

/-- Reading through writes is reading the youngest one that covers the address, else the memory below. -/
theorem laidAll_apply (m : α → β) (ps : List (Overlay α β)) (a : α) : laidAll m ps a = (latest ps a).getD (m a) := by
  have hgen : ∀ (ps : List (Overlay α β)) (m : α → β) (acc : Option β) (x : β), m a = acc.getD x →
      laidAll m ps a = (ps.foldl (fun acc p => (p a).or acc) acc).getD x := by
    intro ps
    induction ps with
    | nil => exact fun m acc x h => h
    | cons p ps ih =>
      intro m acc x h
      refine ih (laid m p) ((p a).or acc) x ?_
      unfold laid
      cases hp : p a with
      | none => simpa using h
      | some v => rfl
  exact hgen ps m none (m a) rfl

/-- The memories below matter only where no write covers the address. -/
theorem laidAll_congr (h : m a = m' a) (ps : List (Overlay α β)) : laidAll m ps a = laidAll m' ps a := by
  rw [laidAll_apply, laidAll_apply, h]

/-- A write that no younger one covers decides. -/
theorem laidAll_of_last {v : β} (h : p a = some v) (hqs : ∀ q ∈ qs, q a = none) :
    laidAll m (ps ++ p :: qs) a = v := by
  rw [laidAll_append, laidAll_cons]
  generalize hm : laid (laidAll m ps) p = m₁
  have hv : m₁ a = v := by
    rw [← hm]
    exact laid_of_some h
  clear hm
  induction qs generalizing m₁ with
  | nil => exact hv
  | cons q qs ih =>
    rw [laidAll_cons]
    refine ih (fun r hr => hqs r (List.mem_cons_of_mem _ hr)) _ ?_
    rw [laid_of_none (hqs q (List.mem_cons_self ..)), hv]

/-- `p` repeats what is below wherever it covers more than `q`. -/
def Repeats (m : α → β) (p q : Overlay α β) : Prop := ∀ a, laid m p a = laid m q a

/-- A list of writes each of which, on top of the older ones, does no more than a smaller write. -/
def AllRepeat (m : α → β) : List (Overlay α β × Overlay α β) → Prop
  | [] => True
  | x :: xs => Repeats m x.1 x.2 ∧ AllRepeat (laid m x.2) xs

theorem allRepeat_append {xs ys : List (Overlay α β × Overlay α β)} :
    AllRepeat m (xs ++ ys) ↔ AllRepeat m xs ∧ AllRepeat (laidAll m (xs.map Prod.snd)) ys := by
  induction xs generalizing m with
  | nil => simp [AllRepeat]
  | cons x xs ih =>
    rw [List.cons_append, AllRepeat, AllRepeat, ih, List.map_cons, laidAll_cons, and_assoc]

/-- An overlay that repeats what is there writes what its part writes. -/
theorem Repeats.eq {q : Overlay α β} (h : Repeats m p q) : laid m p = laid m q := funext h

end Overlay

end SocRV
