import Mathlib.Algebra.Group.Nat.Defs
import Mathlib.Tactic.Common

/-!
# Scripts

Programs that change a state and may raise an error.  What a script has done before it raises stays done.  The rules tell
when a script returns or raises from every state, and what it keeps or establishes in the state, however it ends.
-/

namespace SocRV

/-- A script: its outcome and the state that it leaves. -/
def Script (σ ε α : Type) : Type := σ → Except ε α × σ

namespace Script

variable {σ ε α β : Type}

instance : Monad (Script σ ε) where
  pure a := fun s => (.ok a, s)
  bind x f := fun s => match x s with
    | (.ok a, t) => f a t
    | (.error e, t) => (.error e, t)

/-- Raise an error. -/
def raise (e : ε) : Script σ ε α := fun s => (.error e, s)

/-- Change the state. -/
def modify (f : σ → σ) : Script σ ε Unit := fun s => (.ok (), f s)

/-- Compute from the state, without changing it. -/
def read (f : σ → Except ε α) : Script σ ε α := fun s => (f s, s)

variable {x : Script σ ε α} {f : α → Script σ ε β} {s t : σ} {a : α} {e : ε}

/-- After a value the rest of a script goes on from the state that was left. -/
theorem bind_ok (h : x s = (.ok a, t)) : (x >>= f) s = f a t := by
  show (match x s with
    | (.ok a, t) => f a t
    | (.error e, t) => (.error e, t)) = f a t
  rw [h]

/-- After an error nothing else of a script runs. -/
theorem bind_error (h : x s = (.error e, t)) : (x >>= f) s = (.error e, t) := by
  show (match x s with
    | (.ok a, t) => f a t
    | (.error e, t) => (.error e, t)) = (.error e, t)
  rw [h]

/-- A sequence that returns has both its parts return. -/
theorem of_bind_ok {b : β} (h : (x >>= f) s = (.ok b, t)) : ∃ a s', x s = (.ok a, s') ∧ f a s' = (.ok b, t) := by
  cases hx : x s with
  | mk r s' =>
    cases r with
    | error e =>
      rw [bind_error hx] at h
      cases congrArg Prod.fst h
    | ok a =>
      rw [bind_ok hx] at h
      exact ⟨a, s', rfl, h⟩

instance : LawfulMonad (Script σ ε) := by
  refine LawfulMonad.mk' _ ?_ ?_ ?_
  · intro α x
    funext s
    show (match x s with
      | (.ok a, t) => (.ok a, t)
      | (.error e, t) => (.error e, t)) = x s
    cases hx : x s with
    | mk r t => cases r <;> rfl
  · intro α β a f
    rfl
  · intro α β γ x f g
    funext s
    cases hx : x s with
    | mk r t =>
      cases r with
      | error e => rw [bind_error hx, bind_error (bind_error hx)]
      | ok a =>
        rw [bind_ok hx]
        cases hf : f a t with
        | mk q u =>
          cases q with
          | error e => rw [bind_error hf, bind_error ((bind_ok hx).trans hf)]
          | ok b => rw [bind_ok hf, bind_ok ((bind_ok hx).trans hf)]

/-! ## The outcome -/

/-- The script returns from every state. -/
def Succeeds (x : Script σ ε α) : Prop := ∀ s, ∃ a t, x s = (.ok a, t)

/-- The script raises an error of a kind from every state. -/
def Raises (E : ε → Prop) (x : Script σ ε α) : Prop := ∀ s, ∃ e t, x s = (.error e, t) ∧ E e

/-- The script raises no error of a kind. -/
def Avoids (E : ε → Prop) (x : Script σ ε α) : Prop := ∀ s e t, x s = (.error e, t) → ¬ E e

variable {E : ε → Prop}

theorem Succeeds.pure (a : α) : Succeeds (Pure.pure a : Script σ ε α) := fun s => ⟨a, s, rfl⟩

theorem Succeeds.modify (g : σ → σ) : Succeeds (Script.modify g : Script σ ε Unit) := fun s => ⟨(), g s, rfl⟩

theorem Succeeds.bind (hx : Succeeds x) (hf : ∀ a, Succeeds (f a)) : Succeeds (x >>= f) := by
  intro s
  obtain ⟨a, t, ha⟩ := hx s
  rw [bind_ok ha]
  exact hf a t

theorem Succeeds.mapM {g : α → Script σ ε β} {l : List α} (h : ∀ a ∈ l, Succeeds (g a)) : Succeeds (l.mapM g) := by
  induction l with
  | nil =>
    rw [List.mapM_nil]
    exact Succeeds.pure _
  | cons a l ih =>
    rw [List.mapM_cons]
    refine (h a (List.mem_cons_self ..)).bind fun b => ?_
    exact (ih fun c hc => h c (List.mem_cons_of_mem _ hc)).bind fun bs => Succeeds.pure _

theorem Succeeds.avoids (hx : Succeeds x) : Avoids E x := by
  intro s e t h
  obtain ⟨a, t', ha⟩ := hx s
  rw [ha] at h
  cases congrArg Prod.fst h

theorem Avoids.bind (hx : Avoids E x) (hf : ∀ a, Avoids E (f a)) : Avoids E (x >>= f) := by
  intro s e t h
  cases hr : x s with
  | mk r s' =>
    cases r with
    | error e' =>
      rw [bind_error hr] at h
      cases h
      exact hx s e t hr
    | ok a =>
      rw [bind_ok hr] at h
      exact hf a s' e t h

/-- What raises in front raises as a whole. -/
theorem Raises.bind (hx : Raises E x) : Raises E (x >>= f) := by
  intro s
  obtain ⟨e, t, he, hE⟩ := hx s
  exact ⟨e, t, bind_error he, hE⟩

/-- What raises behind a part that returns raises as a whole. -/
theorem Raises.behind (hx : Succeeds x) (hf : ∀ a, Raises E (f a)) : Raises E (x >>= f) := by
  intro s
  obtain ⟨a, t, ha⟩ := hx s
  rw [bind_ok ha]
  exact hf a t

/-! ## The state -/

/-- The script keeps what holds of the state, however it ends. -/
def Keeps (P : σ → Prop) (x : Script σ ε α) : Prop := ∀ s, P s → P (x s).2

/-- The script establishes a property of the state, however it ends. -/
def Ensures (P : σ → Prop) (x : Script σ ε α) : Prop := ∀ s, P (x s).2

variable {P : σ → Prop}

theorem Keeps.pure (a : α) : Keeps P (Pure.pure a : Script σ ε α) := fun _ h => h

theorem Keeps.raise (e : ε) : Keeps P (Script.raise e : Script σ ε α) := fun _ h => h

theorem Keeps.read (g : σ → Except ε α) : Keeps P (Script.read g) := fun _ h => h

theorem Keeps.bind (hx : Keeps P x) (hf : ∀ a, Keeps P (f a)) : Keeps P (x >>= f) := by
  intro s hs
  have hxs := hx s hs
  cases hr : x s with
  | mk r t =>
    rw [hr] at hxs
    cases r with
    | error e =>
      rw [bind_error hr]
      exact hxs
    | ok a =>
      rw [bind_ok hr]
      exact hf a t hxs

theorem Keeps.mapM {g : α → Script σ ε β} {l : List α} (h : ∀ a ∈ l, Keeps P (g a)) : Keeps P (l.mapM g) := by
  induction l with
  | nil =>
    rw [List.mapM_nil]
    exact Keeps.pure _
  | cons a l ih =>
    rw [List.mapM_cons]
    refine (h a (List.mem_cons_self ..)).bind fun b => ?_
    exact (ih fun c hc => h c (List.mem_cons_of_mem _ hc)).bind fun bs => Keeps.pure _

/-- What is established and then kept holds in the end. -/
theorem Ensures.bind (hx : Ensures P x) (hf : ∀ a, Keeps P (f a)) : Ensures P (x >>= f) := by
  intro s
  have hxs := hx s
  cases hr : x s with
  | mk r t =>
    rw [hr] at hxs
    cases r with
    | error e =>
      rw [bind_error hr]
      exact hxs
    | ok a =>
      rw [bind_ok hr]
      exact hf a t hxs

/-- What is established behind a part that returns. -/
theorem Ensures.behind (hx : Succeeds x) (hf : ∀ a, Ensures P (f a)) : Ensures P (x >>= f) := by
  intro s
  obtain ⟨a, t, ha⟩ := hx s
  rw [bind_ok ha]
  exact hf a t

end Script

end SocRV
