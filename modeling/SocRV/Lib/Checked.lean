import Mathlib.Algebra.Group.Nat.Defs
import Mathlib.Data.List.Forall2
import Mathlib.Tactic.Common

/-!
# Programs that check their input

A program that may raise an error, read from its result: what has been checked, and what the parts returned.
-/

namespace SocRV

universe u v

variable {ε : Type v} {α β : Type u} {e : ε} {x : Except ε α} {f : α → Except ε β} {a : α} {b : β}

/-- A sequence that returns has both its parts return. -/
theorem ok_of_bind (h : (x >>= f) = .ok b) : ∃ a, x = .ok a ∧ f a = .ok b := by
  cases x with
  | error e => cases h
  | ok a => exact ⟨a, rfl, h⟩

/-- What follows a check is reached only when the check passed. -/
theorem ok_of_check {c : Prop} [Decidable c] (h : (if c then .error e else x) = .ok a) : ¬c ∧ x = .ok a := by
  by_cases hc : c
  · rw [if_pos hc] at h
    cases h
  · rw [if_neg hc] at h
    exact ⟨hc, h⟩

/-! ## Loops -/

/-- A list that is worked through has each of its elements worked through. -/
theorem ok_of_mapM {xs : List α} {ys : List β} (h : xs.mapM f = .ok ys) : List.Forall₂ (fun x y => f x = .ok y) xs ys := by
  induction xs generalizing ys with
  | nil =>
    rw [List.mapM_nil] at h
    cases h
    exact .nil
  | cons x xs ih =>
    rw [List.mapM_cons] at h
    obtain ⟨y, hy, h⟩ := ok_of_bind h
    obtain ⟨ys', hys, h⟩ := ok_of_bind h
    cases h
    exact .cons hy (ih hys)

/-- A loop without a state has each of its rounds return. -/
theorem ok_of_forM {xs : List α} {g : α → Except ε PUnit.{u + 1}} (h : xs.forM g = .ok ⟨⟩) : ∀ x ∈ xs, g x = .ok ⟨⟩ := by
  induction xs with
  | nil =>
    intro x hx
    cases hx
  | cons y ys ih =>
    obtain ⟨⟨⟩, hy, h⟩ := ok_of_bind (f := fun _ => ys.forM g) h
    intro x hx
    rcases List.mem_cons.mp hx with rfl | hx
    · exact hy
    · exact ih h x hx

section Fold

variable {g : β → α → Except ε β} {xs : List α} {b b' : β}

/-- A loop keeps what each of its rounds keeps. -/
theorem foldlM_keeps {P : β → Prop} (hstep : ∀ b, ∀ x ∈ xs, ∀ b', P b → g b x = .ok b' → P b')
    (h : xs.foldlM g b = .ok b') (hb : P b) : P b' := by
  induction xs generalizing b with
  | nil =>
    cases h
    exact hb
  | cons x xs ih =>
    rw [List.foldlM_cons] at h
    obtain ⟨c, hc, h⟩ := ok_of_bind h
    refine ih (fun b y hy => hstep b y (List.mem_cons_of_mem _ hy)) h ?_
    exact hstep b x (List.mem_cons_self ..) c hb hc

/-- A loop that returns has each of its rounds return. -/
theorem ok_of_foldlM (h : xs.foldlM g b = .ok b') : ∀ x ∈ xs, ∃ c c', g c x = .ok c' := by
  induction xs generalizing b with
  | nil =>
    intro x hx
    cases hx
  | cons y ys ih =>
    rw [List.foldlM_cons] at h
    obtain ⟨c, hc, h⟩ := ok_of_bind h
    intro x hx
    rcases List.mem_cons.mp hx with rfl | hx
    · exact ⟨b, c, hc⟩
    · exact ih h x hx

end Fold

end SocRV
