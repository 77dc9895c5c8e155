import SocRV.Lib.Machine

/-!
# Retirement in program order

A machine that takes instructions in early and lets them take effect late reports each effect with the time at which
the instruction was taken in.  What is read at time `t` is in program order when it is what the older effects leave,
those of the instructions taken in before `t`, whenever they happen.  It is enough that nothing younger has had its
effect at time `t`, and that what is older and still under way leaves alone what is read.
-/

namespace SocRV

variable {α β ε : Type*}

/-- The state after the effects of a list, oldest first. -/
def applied (f : α → ε → α) (a : α) (es : List (Nat × ε)) : α :=
  es.foldl (fun a e => f a e.2) a

/-- The effects of the instructions taken in before `t`. -/
def olderThan (t : Nat) (es : List (Nat × ε)) : List (Nat × ε) :=
  es.filter (fun e => decide (e.1 < t))

theorem applied_append (f : α → ε → α) (a : α) (es fs : List (Nat × ε)) :
    applied f a (es ++ fs) = applied f (applied f a es) fs := by
  simp [applied]

/-- Effects that leave alone what is read do not change it. -/
theorem read_applied {f : α → ε → α} {read : α → β} {v : β} {es : List (Nat × ε)}
    (h : ∀ e ∈ es, ∀ a, read a = v → read (f a e.2) = v) {a : α} (ha : read a = v) : read (applied f a es) = v := by
  induction es generalizing a with
  | nil => exact ha
  | cons e es ih => exact ih (fun e' he' => h e' (List.mem_cons_of_mem e he')) (h e List.mem_cons_self a ha)

/-- Effects that are all older are not filtered out. -/
theorem olderThan_eq_self {t : Nat} {es : List (Nat × ε)} (h : ∀ e ∈ es, e.1 < t) : olderThan t es = es := by
  rw [olderThan, List.filter_eq_self]
  intro e he
  exact decide_eq_true (h e he)

/-- What is read after the first effects is what the older ones of all leave. -/
theorem read_olderThan {f : α → ε → α} {read : α → β} {v : β} {a : α} {t : Nat} {es fs : List (Nat × ε)}
    (hes : ∀ e ∈ es, e.1 < t) (hread : read (applied f a es) = v)
    (hfs : ∀ e ∈ fs, e.1 < t → ∀ a, read a = v → read (f a e.2) = v) :
    read (applied f a (olderThan t (es ++ fs))) = v := by
  rw [olderThan, List.filter_append, ← olderThan, ← olderThan, olderThan_eq_self hes, applied_append]
  refine read_applied (fun e he => ?_) hread
  rw [olderThan, List.mem_filter, decide_eq_true_eq] at he
  exact hfs e he.1 he.2

namespace Machine

variable {σ ι : Type*}

/-- What is reported from step `t` on comes from one of these steps. -/
theorem events_split (m : Machine σ ι) (out : σ → ι → List β) (w : Nat → ι) {t n : Nat} (h : t ≤ n) :
    ∃ fs, m.events out w n = m.events out w t ++ fs ∧
      ∀ e ∈ fs, ∃ k, t ≤ k ∧ k < n ∧ e ∈ out (m.run w k) (w k) := by
  induction n, h using Nat.le_induction with
  | base => exact ⟨[], by simp, by simp⟩
  | succ n hn ih =>
    obtain ⟨fs, heq, hfs⟩ := ih
    refine ⟨fs ++ out (m.run w n) (w n), by rw [events, heq, List.append_assoc], fun e he => ?_⟩
    rcases List.mem_append.mp he with he | he
    · obtain ⟨k, h1, h2, h3⟩ := hfs e he
      exact ⟨k, h1, Nat.lt_succ_of_lt h2, h3⟩
    · exact ⟨n, hn, Nat.lt_succ_self n, he⟩

/-- Every report comes from some step. -/
theorem mem_events {m : Machine σ ι} {out : σ → ι → List β} {w : Nat → ι} {n : Nat} {e : β}
    (h : e ∈ m.events out w n) : ∃ k < n, e ∈ out (m.run w k) (w k) := by
  obtain ⟨fs, heq, hfs⟩ := m.events_split out w (Nat.zero_le n)
  rw [heq] at h
  obtain ⟨k, -, hk, he⟩ := hfs e (by simpa [events] using h)
  exact ⟨k, hk, he⟩

/-- A state that follows the effects step by step is what all of them together leave. -/
theorem run_applied {m : Machine σ ι} {out : σ → ι → List (Nat × ε)} {f : α → ε → α} {view : σ → α} {w : Nat → ι}
    (hstep : ∀ n, view (m.run w (n + 1)) = applied f (view (m.run w n)) (out (m.run w n) (w n))) (n : Nat) :
    view (m.run w n) = applied f (view m.reset) (m.events out w n) := by
  induction n with
  | zero => rfl
  | succ n ih => rw [hstep, ih, events, applied_append]

/-- The program order of reads: a state that follows the effects, in which every effect by time `t` is older and every
later one that is older leaves alone what is read, shows at time `t` what the older effects leave. -/
theorem read_in_order {m : Machine σ ι} {out : σ → ι → List (Nat × ε)} {f : α → ε → α} {view : σ → α} {read : α → β}
    {w : Nat → ι}
    (hstep : ∀ n, view (m.run w (n + 1)) = applied f (view (m.run w n)) (out (m.run w n) (w n))) {t n : Nat} (hn : t ≤ n)
    (hpast : ∀ k < t, ∀ e ∈ out (m.run w k) (w k), e.1 < t)
    (hfuture : ∀ k, t ≤ k → ∀ e ∈ out (m.run w k) (w k), e.1 < t →
      ∀ a, read a = read (view (m.run w t)) → read (f a e.2) = read (view (m.run w t))) :
    read (view (m.run w t)) = read (applied f (view m.reset) (olderThan t (m.events out w n))) := by
  obtain ⟨fs, heq, hfs⟩ := m.events_split out w hn
  have hes : ∀ e ∈ m.events out w t, e.1 < t := fun e he => by
    obtain ⟨k, hk, hke⟩ := mem_events he
    exact hpast k hk e hke
  have hnow : read (applied f (view m.reset) (m.events out w t)) = read (view (m.run w t)) :=
    congrArg read (run_applied hstep t).symm
  rw [heq]
  refine (read_olderThan hes hnow fun e he hlt a ha => ?_).symm
  obtain ⟨k, hk, -, hke⟩ := hfs e he
  exact hfuture k hk e hke hlt a ha

/-- Effects that are each older than everything still to come are reported in program order. -/
theorem pairwise_events {m : Machine σ ι} {out : σ → ι → List (Nat × ε)} {w : Nat → ι}
    (hone : ∀ n, (out (m.run w n) (w n)).Pairwise (fun e e' => e.1 < e'.1))
    (hlater : ∀ k n, k < n → ∀ e ∈ out (m.run w k) (w k), ∀ e' ∈ out (m.run w n) (w n), e.1 < e'.1) (n : Nat) :
    (m.events out w n).Pairwise (fun e e' => e.1 < e'.1) := by
  induction n with
  | zero => exact List.Pairwise.nil
  | succ n ih =>
    rw [events, List.pairwise_append]
    refine ⟨ih, hone n, fun e he e' he' => ?_⟩
    obtain ⟨k, hk, hke⟩ := mem_events he
    exact hlater k n hk e hke e' he'

end Machine

end SocRV
