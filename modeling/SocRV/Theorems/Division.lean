import SocRV.Core.DivShort
import SocRV.Lib.Machine

/-!
# Divisions

A division that is issued and not flushed finishes exactly once, and in the cycle behind its result is on the bus,
whichever way through the divider it takes.
-/

namespace SocRV

namespace DivCtl

/-- The divider as a clocked design. -/
def machine : Machine DivCtl DivIn := ⟨{}, next⟩

/-- Decode issues an operation only while the divider is not at work. -/
def IssuesWhenIdle (s : DivCtl) (i : DivIn) : Prop := i.valid = true → s.runState = false

instance (s : DivCtl) (i : DivIn) : Decidable (s.IssuesWhenIdle i) :=
  inferInstanceAs (Decidable (i.valid = true → s.runState = false))

/-- In every run that issues to an idle divider its registers are as said. -/
theorem running_run {w : Nat → DivIn} (hw : machine.Respects IssuesWhenIdle w) (n : Nat) : Running (machine.run w n) :=
  Machine.run_invariant running_reset (fun _ _ h hi => h.next hi) hw n

variable {w : Nat → DivIn} {i : DivIn} {n t : Nat}

/-- A division at work finishes after its remaining steps, not before, with its result behind. -/
theorem At.finishes (left : Nat) (hd : ∀ k, n ≤ k → Undisturbed (w k)) {c : Nat} (h : (machine.run w n).At i (c + 1))
    (hleft : c + 1 + left = lastCount i) :
    (∀ k < left, (machine.run w (n + k)).finish (w (n + k)) = false) ∧
      (machine.run w (n + left)).finish (w (n + left)) = true ∧ (machine.run w (n + left + 1)).out = i.result := by
  induction left generalizing n c with
  | zero =>
    have hfin := h.finish (hd n (Nat.le_refl n))
    rw [decide_eq_true (by omega)] at hfin
    rw [Nat.add_zero] at hleft
    rw [hleft] at h
    exact ⟨fun k hk => absurd hk (Nat.not_lt_zero k), hfin, h.result (hd n (Nat.le_refl n))⟩
  | succ left ih =>
    have hfin := h.finish (hd n (Nat.le_refl n))
    rw [decide_eq_false (by omega)] at hfin
    have hnext : (machine.run w (n + 1)).At i (c + 2) := h.next (by omega) (hd n (Nat.le_refl n))
    obtain ⟨hbefore, hat, hout⟩ := ih (fun k hk => hd k (by omega)) hnext (by omega)
    have hsum : n + 1 + left = n + (left + 1) := by omega
    rw [hsum] at hat hout
    refine ⟨fun k hk => ?_, hat, hout⟩
    cases k with
    | zero => exact hfin
    | succ k =>
      have hk' := hbefore k (by omega)
      have hsum' : n + 1 + k = n + (k + 1) := by omega
      rwa [hsum'] at hk'

/-- A finished division does not finish again. -/
theorem not_finish_again (hw : machine.Respects IssuesWhenIdle w) (hd : ∀ k, n ≤ k → Undisturbed (w k))
    (hfin : (machine.run w n).finish (w n) = true) :
    ∀ k, n < k → (machine.run w k).finish (w k) = false := by
  have hidle : ∀ k, (machine.run w (n + 1 + k)).runState = false := by
    intro k
    induction k with
    | zero =>
      have hnext : (machine.run w (n + 1)).runState = (machine.run w n).runIn (w n) := rfl
      rw [Nat.add_zero, hnext, runIn, hfin, Bool.not_true, Bool.and_false, Bool.false_and]
    | succ k ih =>
      have hnext : (machine.run w (n + 1 + (k + 1))).runState =
          (machine.run w (n + 1 + k)).runIn (w (n + 1 + k)) := rfl
      rw [hnext, runIn, (hd (n + 1 + k) (by omega)).valid, ih, Bool.or_self, Bool.false_and, Bool.false_and]
  intro k hk
  have hsum : n + 1 + (k - (n + 1)) = k := by omega
  have hrun := hidle (k - (n + 1))
  rw [hsum] at hrun
  exact (running_run hw k).not_finish hrun

/-- However an operation starts, it finishes with its result behind, and not before. -/
theorem Issued.finishes (hd : ∀ k, n ≤ k → Undisturbed (w k)) (h : (machine.run w n).Issued i) :
    ∃ k, n ≤ k ∧ (machine.run w k).finish (w k) = true ∧ (machine.run w (k + 1)).out = i.result ∧
      ∀ m, n ≤ m → m < k → (machine.run w m).finish (w m) = false := by
  have hj := hd n (Nat.le_refl n)
  have hlast : 32 ≤ lastCount i := by
    unfold lastCount
    split_ifs <;> omega
  have hfin := h.finish hj
  cases hsmall : (machine.run w n).smallnumCase (w n) with
  | true =>
    rw [hsmall] at hfin
    exact ⟨n, Nat.le_refl n, hfin, h.result hj hsmall, fun m hnm hm => absurd hnm (by omega)⟩
  | false =>
    rw [hsmall] at hfin
    cases hshort : (machine.run w n).shortqEnable with
    | false =>
      have hat : (machine.run w (n + 1)).At i 1 := h.next_at hj hsmall hshort
      obtain ⟨hbefore, hf, hout⟩ := At.finishes (lastCount i - 1) (fun k hk => hd k (by omega)) hat (by omega)
      refine ⟨n + 1 + (lastCount i - 1), by omega, hf, hout, fun m hnm hm => ?_⟩
      by_cases heq : m = n
      · rw [heq]
        exact hfin
      · have hm' := hbefore (m - (n + 1)) (by omega)
        have hsum : n + 1 + (m - (n + 1)) = m := by omega
        rwa [hsum] at hm'
    | true =>
      obtain ⟨skip, hskip⟩ : ∃ k, (machine.run w (n + 1)).Skipping i k := h.next_skipping hj hsmall hshort
      have hj' := hd (n + 1) (by omega)
      have hat : (machine.run w (n + 2)).At i (skip + 1) := hskip.next_at hj'
      have hsize := hskip.size
      obtain ⟨hbefore, hf, hout⟩ := At.finishes (lastCount i - (skip + 1)) (fun k hk => hd k (by omega)) hat
        (by omega)
      refine ⟨n + 2 + (lastCount i - (skip + 1)), by omega, hf, hout, fun m hnm hm => ?_⟩
      by_cases heq : m = n
      · rw [heq]
        exact hfin
      by_cases heq' : m = n + 1
      · rw [heq']
        exact hskip.finish hj'
      · have hm' := hbefore (m - (n + 2)) (by omega)
        have hsum : n + 2 + (m - (n + 2)) = m := by omega
        rwa [hsum] at hm'

/-- In every run, an operation that is issued to the idle divider and neither followed by another one nor flushed
finishes exactly once, and in the cycle behind its result is the one of the instruction set. -/
theorem division_result (hw : machine.Respects IssuesWhenIdle w) (hidle : (machine.run w t).flushLowerFf = false)
    (hv : (w t).valid = true) (hf : (w t).flushLower = false) (hd : ∀ k, t < k → Undisturbed (w k)) :
    ∃ k, t < k ∧ (machine.run w (k + 1)).out = (w t).result ∧
      ∀ m, t ≤ m → ((machine.run w m).finish (w m) = true ↔ m = k) := by
  have hrun : (machine.run w t).runState = false := hw t hv
  have hissued : (machine.run w (t + 1)).Issued (w t) := (running_run hw t).issue ⟨hrun, hidle⟩ hv hf
  obtain ⟨k, hk, hfin, hout, hbefore⟩ := hissued.finishes fun k hk => hd k (by omega)
  refine ⟨k, by omega, hout, fun m hm => ⟨fun hmf => ?_, fun hmk => hmk ▸ hfin⟩⟩
  by_contra hne
  have hno : (machine.run w m).finish (w m) = false := by
    by_cases hmt : m = t
    · rw [hmt]
      exact (running_run hw t).not_finish hrun
    by_cases hlt : m < k
    · exact hbefore m (by omega) hlt
    · exact not_finish_again hw (fun q hq => hd q (by omega)) hfin m (by omega)
  rw [hno] at hmf
  cases hmf

/-- `DIV` of -100 by 7, after two idle cycles. -/
def divide : List DivIn := [{}, {}, { valid := true, dividend := BitVec.ofInt 32 (-100), divisor := 7 }]

/-- The skip makes it finish ten cycles later. -/
example : (List.range 16).map (fun n => (machine.run (divide.getD · {}) n).finish (divide.getD n {})) =
    (List.range 16).map (· == 12) := by
  decide +kernel

/-- The result is -14. -/
theorem division_result_divide :
    ∃ k, 2 < k ∧ (machine.run (divide.getD · {}) (k + 1)).out = BitVec.ofInt 32 (-14) ∧
      ∀ m, 2 ≤ m → ((machine.run (divide.getD · {}) m).finish (divide.getD m {}) = true ↔ m = k) := by
  have hw : machine.Respects IssuesWhenIdle (divide.getD · {}) := by
    refine Machine.respects_getD ?_ fun s hv => ?_
    · decide +kernel
    · cases hv
  have hrest : ∀ k, 2 < k → Undisturbed (divide.getD k {}) := by
    intro k hk
    have hnone : divide.getD k {} = {} := by
      rw [List.getD_eq_getElem?_getD, List.getElem?_eq_none hk, Option.getD_none]
    rw [hnone]
    exact ⟨rfl, rfl⟩
  exact division_result (w := (divide.getD · {})) (t := 2) hw (by decide +kernel) (by decide +kernel) (by decide +kernel)
    hrest

end DivCtl

end SocRV
