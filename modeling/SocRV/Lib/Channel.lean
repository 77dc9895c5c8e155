import Mathlib.Algebra.Group.Nat.Defs
import Mathlib.Data.List.Induction
import SocRV.Lib.Machine

/-!
# One-place request channels

The specification of a request/response channel with at most one request outstanding: a payload is accepted,
performed once with an answer, and completed with that same payload and answer.  `Channel.step` refuses every
other order of events, so the sequences of accepted, performed and completed requests of any allowed event
list are fixed up to the request in flight.
-/

namespace SocRV

/-- What can happen on a one-place request channel. -/
inductive ChannelEvent (P A : Type) where
  | accept (p : P)
  | fire (p : P) (a : A)
  | complete (p : P) (a : A)
  deriving DecidableEq, Repr

/-- The state of a one-place request channel. -/
inductive Channel (P A : Type) where
  | idle
  | requested (p : P)
  | answered (p : P) (a : A)
  deriving DecidableEq, Repr

namespace Channel

variable {P A : Type}

/-- The payloads accepted in an event list. -/
def acceptsOf (es : List (ChannelEvent P A)) : List P :=
  es.filterMap fun | .accept p => some p | _ => none

/-- The payloads performed in an event list, each with its answer. -/
def firesOf (es : List (ChannelEvent P A)) : List (P × A) :=
  es.filterMap fun | .fire p a => some (p, a) | _ => none

/-- The payloads completed in an event list, each with the answer presented at its completion. -/
def completesOf (es : List (ChannelEvent P A)) : List (P × A) :=
  es.filterMap fun | .complete p a => some (p, a) | _ => none

/-- How the three sequences stand to each other in each state of the channel. -/
def Consistent (es : List (ChannelEvent P A)) : Channel P A → Prop
  | idle => acceptsOf es = (firesOf es).map Prod.fst ∧ completesOf es = firesOf es
  | requested p => acceptsOf es = (firesOf es).map Prod.fst ++ [p] ∧ completesOf es = firesOf es
  | answered p a => acceptsOf es = (firesOf es).map Prod.fst ∧ firesOf es = completesOf es ++ [(p, a)]

/-- What is performed is what was accepted, with at most the last request still to be performed. -/
theorem Consistent.fires {es : List (ChannelEvent P A)} {t : Channel P A} (h : Consistent es t) :
    (firesOf es).map Prod.fst = acceptsOf es ∨ (firesOf es).map Prod.fst = (acceptsOf es).dropLast := by
  cases t with
  | idle => exact .inl h.1.symm
  | requested p => exact .inr (by rw [h.1, List.dropLast_concat])
  | answered p a => exact .inl h.1.symm

/-- What is completed is what was performed, answer for answer, with at most the last one still to complete. -/
theorem Consistent.completes {es : List (ChannelEvent P A)} {t : Channel P A} (h : Consistent es t) :
    completesOf es <+: firesOf es := by
  cases t with
  | idle => exact h.2 ▸ List.prefix_rfl
  | requested p => exact h.2 ▸ List.prefix_rfl
  | answered p a => exact h.2 ▸ List.prefix_append _ _

/-- At most one accepted request is not completed yet. -/
theorem Consistent.outstanding {es : List (ChannelEvent P A)} {t : Channel P A} (h : Consistent es t) :
    (acceptsOf es).length ≤ (completesOf es).length + 1 := by
  cases t with
  | idle => simp [h.1, h.2]
  | requested p => simp [h.1, h.2]
  | answered p a => simp [h.1, h.2]

/-! ## The channel's events -/

variable [DecidableEq P] [DecidableEq A]

/-- One event of the channel; an event out of order, for another payload or with another answer is refused. -/
def step : Channel P A → ChannelEvent P A → Option (Channel P A)
  | idle, .accept p => some (requested p)
  | requested p, .fire p' a => if p' = p then some (answered p a) else none
  | answered p a, .complete p' a' => if p' = p ∧ a' = a then some idle else none
  | _, _ => none

/-- One allowed event keeps the sequences consistent with the state. -/
theorem consistent_step {es : List (ChannelEvent P A)} {t t' : Channel P A} {e : ChannelEvent P A}
    (h : Consistent es t) (ht : step t e = some t') : Consistent (es ++ [e]) t' := by
  cases t with
  | idle =>
    cases e with
    | accept p =>
      obtain rfl : requested p = t' := by simpa [step] using ht
      simpa [Consistent, acceptsOf, firesOf, completesOf] using h
    | fire p a => simp [step] at ht
    | complete p a => simp [step] at ht
  | requested q =>
    cases e with
    | accept p => simp [step] at ht
    | fire p a =>
      obtain ⟨rfl, rfl⟩ : p = q ∧ answered q a = t' := by simpa [step] using ht
      simpa [Consistent, acceptsOf, firesOf, completesOf, eq_comm] using h
    | complete p a => simp [step] at ht
  | answered q b =>
    cases e with
    | accept p => simp [step] at ht
    | fire p a => simp [step] at ht
    | complete p a =>
      obtain ⟨⟨rfl, rfl⟩, rfl⟩ : (p = q ∧ a = b) ∧ idle = t' := by simpa [step] using ht
      simpa [Consistent, acceptsOf, firesOf, completesOf, eq_comm] using h

/-- Every event list the channel allows from idle is consistent with the state it ends in. -/
theorem consistent_exec {es : List (ChannelEvent P A)} {t : Channel P A}
    (h : Machine.exec step idle es = some t) : Consistent es t := by
  induction es using List.reverseRecOn generalizing t with
  | nil =>
    obtain rfl : idle = t := by simpa [Machine.exec] using h
    exact ⟨rfl, rfl⟩
  | append_singleton es e ih =>
    rw [Machine.exec_append, Option.bind_eq_some_iff] at h
    obtain ⟨u, hu, ht⟩ := h
    refine consistent_step (ih hu) (e := e) ?_
    simpa [Machine.exec, Option.bind_eq_some_iff] using ht

end Channel

end SocRV
