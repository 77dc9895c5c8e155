import Mathlib.Algebra.Group.Nat.Defs
import Mathlib.Data.Nat.Init
import Mathlib.Data.List.Basic

/-!
# Synchronous machines

A clocked design is a reset state and a next-state function; everything from the outside (other clocks,
other modules, the program) arrives as one input per step.  A run is fed by an infinite stream of inputs, so
"in every run and every cycle" is a statement about `run w n` for all `w` and all `n`.  The rules below turn a
one-step lemma into a statement about whole runs; an environment assumption is a predicate on the state and
the input of a step.
-/

namespace SocRV

/-- A clocked design: the state after reset and the state after one more step. -/
structure Machine (σ ι : Type*) where
  reset : σ
  next : σ → ι → σ

namespace Machine

variable {σ ι α τ : Type*}

/-- The state in which step `n` of the run on the input stream `w` starts. -/
def run (m : Machine σ ι) (w : Nat → ι) : Nat → σ
  | 0 => m.reset
  | n + 1 => m.next (m.run w n) (w n)

/-- The environment keeps `Env` in every step of the run. -/
def Respects (m : Machine σ ι) (Env : σ → ι → Prop) (w : Nat → ι) : Prop :=
  ∀ n, Env (m.run w n) (w n)

/-- What `out` reports over the first `n` steps of the run, oldest first. -/
def events (m : Machine σ ι) (out : σ → ι → List α) (w : Nat → ι) : Nat → List α
  | 0 => []
  | n + 1 => m.events out w n ++ out (m.run w n) (w n)

/-- What `out` reports in the `n` steps from step `k` on, oldest first. -/
def eventsFrom (m : Machine σ ι) (out : σ → ι → List α) (w : Nat → ι) (k : Nat) : Nat → List α
  | 0 => []
  | n + 1 => m.eventsFrom out w k n ++ out (m.run w (k + n)) (w (k + n))

@[simp] theorem run_zero (m : Machine σ ι) (w : Nat → ι) : m.run w 0 = m.reset := rfl

/-- A run of one more step takes that step last. -/
theorem run_succ (m : Machine σ ι) (w : Nat → ι) (n : Nat) :
    m.run w (n + 1) = m.next (m.run w n) (w n) := rfl

/-- The invariant rule: what holds after reset and survives every allowed step holds in every state. -/
theorem run_invariant {m : Machine σ ι} {E : σ → ι → Prop} {I : σ → Prop} (h0 : I m.reset)
    (hstep : ∀ s i, I s → E s i → I (m.next s i)) {w : Nat → ι} (henv : m.Respects E w) (n : Nat) :
    I (m.run w n) := by
  induction n with
  | zero => exact h0
  | succ n ih => exact hstep _ _ ih (henv n)

/-- The ranking rule: a state with an invariant that every step keeps, at a lower rank, until the goal is reached leads
to the goal. -/
theorem eventually_of_rank {r : Nat → σ} {I P : σ → Prop} {f : σ → Nat} {k : Nat} (hk : I (r k))
    (hstep : ∀ n ≥ k, I (r n) → P (r n) ∨ (I (r (n + 1)) ∧ f (r (n + 1)) < f (r n))) : ∃ n ≥ k, P (r n) := by
  induction hrank : f (r k) using Nat.strong_induction_on generalizing k with
  | _ m ih =>
    rcases hstep k (Nat.le_refl k) hk with hgoal | ⟨hnext, hlt⟩
    · exact ⟨k, Nat.le_refl k, hgoal⟩
    · obtain ⟨n, hn, hgoal⟩ :=
        ih _ (hrank ▸ hlt) hnext (fun n hn => hstep n (Nat.le_of_succ_le hn)) rfl
      exact ⟨n, Nat.le_of_succ_le hn, hgoal⟩

/-- A run on finitely many inputs followed by a resting one respects what the inputs and the rest respect. -/
theorem respects_getD {m : Machine σ ι} {E : σ → ι → Prop} {l : List ι} {d : ι}
    (hl : ∀ n < l.length, E (m.run (l.getD · d) n) (l.getD n d)) (hd : ∀ s, E s d) :
    m.Respects E (l.getD · d) := by
  intro n
  by_cases hn : n < l.length
  · exact hl n hn
  · have hrest : l.getD n d = d := by simp [List.getD, Nat.le_of_not_lt hn]
    simpa only [hrest] using hd _

/-- The same when the rest is respected only in states that resting preserves. -/
theorem respects_getD_of_stable {m : Machine σ ι} {E : σ → ι → Prop} {I : σ → Prop} {l : List ι} {d : ι}
    (hl : ∀ n < l.length, E (m.run (l.getD · d) n) (l.getD n d)) (hI : I (m.run (l.getD · d) l.length))
    (hstep : ∀ s, I s → I (m.next s d)) (hd : ∀ s, I s → E s d) : m.Respects E (l.getD · d) := by
  have hrest : ∀ n, l.length ≤ n → l.getD n d = d := fun n hn => by simp [List.getD, hn]
  have hinv : ∀ n, l.length ≤ n → I (m.run (l.getD · d) n) := by
    intro n hn
    induction n, hn using Nat.le_induction with
    | base => exact hI
    | succ n hn ih =>
      rw [run_succ, hrest n hn]
      exact hstep _ ih
  intro n
  by_cases hn : n < l.length
  · exact hl n hn
  · simpa only [hrest n (Nat.le_of_not_lt hn)] using hd _ (hinv n (Nat.le_of_not_lt hn))

/-- The events of a stretch of a run are those of its parts. -/
theorem eventsFrom_add (m : Machine σ ι) (out : σ → ι → List α) (w : Nat → ι) (k a b : Nat) :
    m.eventsFrom out w k (a + b) = m.eventsFrom out w k a ++ m.eventsFrom out w (k + a) b := by
  induction b with
  | zero => exact (List.append_nil _).symm
  | succ b ih =>
    rw [← Nat.add_assoc, eventsFrom, ih, eventsFrom, List.append_assoc, Nat.add_assoc]

/-- Filtering the events of a run is filtering them step by step. -/
theorem events_filterMap {β : Type*} (m : Machine σ ι) (out : σ → ι → List α) (f : α → Option β) (w : Nat → ι)
    (n : Nat) : (m.events out w n).filterMap f = m.events (fun s i => (out s i).filterMap f) w n := by
  induction n with
  | zero => rfl
  | succ n ih => rw [events, events, List.filterMap_append, ih]

/-- A specification that may refuse an event, run over a list of events. -/
def exec (spec : τ → α → Option τ) : τ → List α → Option τ
  | t, [] => some t
  | t, e :: es => (spec t e).bind fun t' => exec spec t' es

theorem exec_append (spec : τ → α → Option τ) (t : τ) (es fs : List α) :
    exec spec t (es ++ fs) = (exec spec t es).bind fun t' => exec spec t' fs := by
  induction es generalizing t with
  | nil => rfl
  | cons e es ih =>
    cases h : spec t e with
    | none => simp [exec, h]
    | some t' => simp [exec, h, ih]

/-- The simulation rule: when every step's events are events the specification allows from a related state,
the whole run's events are a run of the specification. -/
theorem events_simulated {m : Machine σ ι} {E : σ → ι → Prop} {f : τ → α → Option τ}
    {o : σ → ι → List α} {R : σ → τ → Prop} {t₀ : τ} (h0 : R m.reset t₀)
    (hstep : ∀ s i t, R s t → E s i → ∃ t', exec f t (o s i) = some t' ∧ R (m.next s i) t')
    {w : Nat → ι} (henv : m.Respects E w) (n : Nat) :
    ∃ t, exec f t₀ (m.events o w n) = some t ∧ R (m.run w n) t := by
  induction n with
  | zero => exact ⟨t₀, rfl, h0⟩
  | succ n ih =>
    obtain ⟨t, ht, hR⟩ := ih
    obtain ⟨t', ht', hR'⟩ := hstep _ _ _ hR (henv n)
    refine ⟨t', ?_, hR'⟩
    rw [events, exec_append, ht]
    exact ht'

end Machine

end SocRV
