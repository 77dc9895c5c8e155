import Mathlib.Algebra.Group.Nat.Defs
import Mathlib.Data.List.Infix
import SocRV.Lib.Machine

/-!
# Interleaved actions

Several parties take turns: a run is a list of actions, each of which the state may refuse.  A condition on the actions
taken in a run and an invariant kept by such actions give what holds in every state of the run.
-/

namespace SocRV

namespace Interleaving

variable {τ α : Type*} (f : τ → α → Option τ) (t₀ : τ) (as : List α)

/-- The run comes through the state `s`. -/
def Visits (s : τ) : Prop := ∃ bs, bs <+: as ∧ Machine.exec f t₀ bs = some s

/-- The run takes the action `a` in the state `s`. -/
def Takes (s : τ) (a : α) : Prop := ∃ bs, bs ++ [a] <+: as ∧ Machine.exec f t₀ bs = some s

/-- The states of the run, and what it does in them. -/
def states (f : τ → α → Option τ) (t₀ : τ) : List α → List τ
  | [] => [t₀]
  | a :: as => t₀ :: (f t₀ a).elim [] fun t => states f t as

@[inherit_doc states]
def steps (f : τ → α → Option τ) (t₀ : τ) : List α → List (τ × α)
  | [] => []
  | a :: as => (t₀, a) :: (f t₀ a).elim [] fun t => steps f t as

variable {f t₀ as}

/-- A state that is visited is one of the states of the run. -/
theorem Visits.mem_states {s : τ} (h : Visits f t₀ as s) : s ∈ states f t₀ as := by
  obtain ⟨bs, hbs, hexec⟩ := h
  induction bs generalizing t₀ as with
  | nil =>
    rw [← Option.some.inj hexec]
    cases as <;> exact List.mem_cons_self
  | cons b bs ih =>
    obtain ⟨cs, rfl⟩ := hbs
    obtain ⟨t, ht, hrest⟩ := Option.bind_eq_some_iff.mp hexec
    refine List.mem_cons_of_mem _ ?_
    rw [ht]
    exact ih ⟨cs, rfl⟩ hrest

/-- A step that is taken is one of the steps of the run. -/
theorem Takes.mem_steps {s : τ} {a : α} (h : Takes f t₀ as s a) : (s, a) ∈ steps f t₀ as := by
  obtain ⟨bs, hbs, hexec⟩ := h
  induction bs generalizing t₀ as with
  | nil =>
    obtain ⟨cs, rfl⟩ := hbs
    rw [← Option.some.inj hexec]
    exact List.mem_cons_self
  | cons b bs ih =>
    obtain ⟨cs, rfl⟩ := hbs
    obtain ⟨t, ht, hrest⟩ := Option.bind_eq_some_iff.mp hexec
    refine List.mem_cons_of_mem _ ?_
    rw [ht]
    exact ih ⟨cs, rfl⟩ hrest

/-- The state in which a step is taken is visited. -/
theorem Takes.visits {s : τ} {a : α} (h : Takes f t₀ as s a) : Visits f t₀ as s := by
  obtain ⟨bs, hbs, hs⟩ := h
  exact ⟨bs, (List.prefix_append bs [a]).trans hbs, hs⟩

/-- The invariant rule: what holds at the start and survives every action the run takes holds wherever it comes
through. -/
theorem visits_invariant {E : τ → α → Prop} {I : τ → Prop} (h0 : I t₀)
    (hstep : ∀ s a s', I s → E s a → f s a = some s' → I s') (henv : ∀ s a, Takes f t₀ as s a → E s a) {s : τ}
    (hs : Visits f t₀ as s) : I s := by
  obtain ⟨bs, hbs, hexec⟩ := hs
  induction bs using List.reverseRecOn generalizing s with
  | nil =>
    simp only [Machine.exec, Option.some.injEq] at hexec
    rw [← hexec]
    exact h0
  | append_singleton bs a ih =>
    rw [Machine.exec_append] at hexec
    obtain ⟨r, hr, hlast⟩ := Option.bind_eq_some_iff.mp hexec
    have hI : I r := ih ((List.prefix_append bs [a]).trans hbs) hr
    refine hstep r a s hI (henv r a ⟨bs, hbs, hr⟩) ?_
    simp only [Machine.exec] at hlast
    rwa [Option.bind_fun_some] at hlast

end Interleaving

end SocRV
