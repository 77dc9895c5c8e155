import Mathlib.Algebra.Group.Nat.Defs
import Mathlib.Data.Nat.Find
import SocRV.Lib.Counting
import SocRV.Soc.I2cCycle

/-!
# What holds in every state of the I2C controller

The busy flag, the done flag and the recovery counter fit the state, and a command that runs is reset or ends with the
done flag.
-/

namespace SocRV

namespace I2cMaster

/-! ## Consistency -/

/-- The flags fit the state. -/
structure Consistent (s : I2cMaster) : Prop where
  busy_iff : s.busy = true ↔ s.state ≠ .idle
  not_done : s.busy = true → s.done = false
  recovery : s.recoveryCount.toNat ≤ 8

/-- A command ends: the controller is idle, and the done flag is set. -/
structure Ended (s : I2cMaster) : Prop where
  busy : s.busy = false
  done : s.done = true
  state : s.state = .idle

/-- A command goes on. -/
structure GoesOn (s : I2cMaster) : Prop where
  busy : s.busy = true
  done : s.done = false
  state : s.state ≠ .idle

section Consistent

variable {s t : I2cMaster} {l : Lines}

/-- A command that goes on leaves consistent flags. -/
theorem GoesOn.consistent (h : GoesOn s) (hrec : s.recoveryCount.toNat ≤ 8) : Consistent s :=
  ⟨⟨fun _ => h.state, fun _ => h.busy⟩, fun _ => h.done, hrec⟩

/-- A command that has ended leaves consistent flags. -/
theorem Ended.consistent (h : Ended s) (hrec : s.recoveryCount.toNat ≤ 8) : Consistent s :=
  ⟨⟨fun hb => absurd (h.busy.symm.trans hb) Bool.false_ne_true, fun hs => absurd h.state hs⟩,
    fun hb => absurd (h.busy.symm.trans hb) Bool.false_ne_true, hrec⟩

/-- While the controller is busy a command goes on. -/
theorem Consistent.goesOn (h : Consistent s) (hb : s.busy = true) : GoesOn s :=
  ⟨hb, h.not_done hb, h.busy_iff.mp hb⟩

/-- While the controller is not busy it is idle. -/
theorem Consistent.idle (h : Consistent s) (hb : s.busy = false) : s.state = .idle := by
  by_contra hs
  exact Bool.false_ne_true (hb.symm.trans (h.busy_iff.mpr hs))

/-- A phase leads to another one or to the end. -/
theorem GoesOn.leave (h : GoesOn s) (l : Lines) : GoesOn (s.leave l) ∨ Ended (s.leave l) := by
  have hgoto : ∀ {t : I2cMaster}, t.busy = s.busy → t.done = s.done → t.state ≠ .idle → GoesOn t :=
    fun hb hd hs => ⟨hb.trans h.busy, hd.trans h.done, hs⟩
  unfold I2cMaster.leave
  cases hs : s.state <;> dsimp only
  case idle => exact absurd hs h.state
  case startSclLow => exact Or.inr ⟨rfl, rfl, rfl⟩
  case stopRelease => exact Or.inr ⟨rfl, rfl, rfl⟩
  case writeAckFinish => exact Or.inr ⟨rfl, rfl, rfl⟩
  case readAckFinish => exact Or.inr ⟨rfl, rfl, rfl⟩
  case writeBitHigh => split <;> exact Or.inl (hgoto rfl rfl I2cState.noConfusion)
  case readBitHigh => split <;> exact Or.inl (hgoto rfl rfl I2cState.noConfusion)
  case recoverHigh => split <;> exact Or.inl (hgoto rfl rfl I2cState.noConfusion)
  all_goals exact Or.inl (hgoto rfl rfl I2cState.noConfusion)

/-- The recovery stops counting at 8. -/
theorem leave_recovery (h : s.recoveryCount.toNat ≤ 8) (l : Lines) : (s.leave l).recoveryCount.toNat ≤ 8 := by
  unfold I2cMaster.leave
  cases hs : s.state <;> dsimp only
  case writeBitHigh => split <;> exact h
  case readBitHigh => split <;> exact h
  case recoverHigh =>
    split
    · exact Nat.zero_le 8
    · rename_i hne
      have h8 : s.recoveryCount.toNat ≠ 8 := by
        intro heq
        have heq' : s.recoveryCount = 8 := BitVec.eq_of_toNat_eq heq
        rw [heq'] at hne
        simp at hne
      show (s.recoveryCount + 1).toNat ≤ 8
      rw [BitVec.toNat_add]
      exact Nat.le_trans (Nat.mod_le _ _) (show s.recoveryCount.toNat + 1 ≤ 8 by omega)
  all_goals exact h

/-- The register writes do not touch a running command. -/
theorem GoesOn.written (h : GoesOn s) (req : Option Payload) :
    GoesOn (s.written req) ∧ (s.written req).recoveryCount = s.recoveryCount := by
  obtain ⟨dn, an, da, te, al, bs, cd, ti, td, heq, hdn, -, -⟩ := written_eq s req
  rw [heq]
  refine ⟨⟨h.busy, ?_, h.state⟩, rfl⟩
  rw [← Bool.not_eq_true]
  exact fun hd => Bool.false_ne_true (h.done.symm.trans (hdn hd))

/-- A request that controls nothing is no soft reset. -/
theorem not_softReset {req : Option Payload} (hc : controls req = false) : softReset req = false := by
  unfold softReset
  rw [hc, Bool.false_and]

/-- A running command is reset, goes on or ends. -/
theorem GoesOn.next (h : GoesOn s) (req : Option Payload) (l : Lines) :
    (softReset req = true ∧ s.next req l = s.cleared (enableOf req)) ∨
      (softReset req = false ∧ (GoesOn (s.next req l) ∨ Ended (s.next req l))) := by
  have hwritten := (h.written req).1
  have hcase := busy_case h.busy h.state req l
  generalize s.next req l = t at hcase ⊢
  cases hcase with
  | reset hreq => exact Or.inl ⟨hreq, rfl⟩
  | control hreq hsoft => exact Or.inr ⟨hsoft, Or.inl ⟨h.busy, h.done, h.state⟩⟩
  | timeout ht => exact Or.inr ⟨not_softReset ht.2.1, Or.inr ⟨rfl, rfl, rfl⟩⟩
  | wait hc ht hr => exact Or.inr ⟨not_softReset hc, Or.inl ⟨hwritten.busy, hwritten.done, hwritten.state⟩⟩
  | lost ha => exact Or.inr ⟨not_softReset ha.2.1, Or.inr ⟨rfl, rfl, rfl⟩⟩
  | count hc ht hr hl hp => exact Or.inr ⟨not_softReset hc, Or.inl ⟨hwritten.busy, hwritten.done, hwritten.state⟩⟩
  | leave hc ht hr hl hp =>
    refine Or.inr ⟨not_softReset hc, ?_⟩
    rcases hwritten.leave l with hgo | hend
    · rw [if_pos hgo.busy]
      exact Or.inl ⟨hgo.busy, hgo.done, hgo.state⟩
    · rw [hend.busy, if_neg Bool.false_ne_true]
      exact Or.inr hend

/-- The recovery count stays at most eight. -/
theorem GoesOn.next_recovery (h : GoesOn s) (hrec : s.recoveryCount.toNat ≤ 8) (req : Option Payload) (l : Lines) :
    (s.next req l).recoveryCount.toNat ≤ 8 := by
  have hwritten : (s.written req).recoveryCount.toNat ≤ 8 := by
    rw [(h.written req).2]
    exact hrec
  have hcase := busy_case h.busy h.state req l
  generalize s.next req l = t at hcase ⊢
  cases hcase with
  | reset hreq => exact hrec
  | control hreq hsoft => exact hrec
  | timeout ht => exact hwritten
  | wait hc ht hr => exact hwritten
  | lost ha => exact hwritten
  | count hc ht hr hl hp => exact hwritten
  | leave hc ht hr hl hp =>
    split
    · exact leave_recovery hwritten l
    · exact leave_recovery hwritten l

/-- An accepted command starts, or it is refused and done at once. -/
theorem acceptCommand_cases (p : Payload) :
    GoesOn (s.acceptCommand p) ∨ ((s.acceptCommand p).busy = s.busy ∧ (s.acceptCommand p).done = true ∧
      (s.acceptCommand p).state = s.state) := by
  unfold acceptCommand
  dsimp only
  split
  · exact Or.inl ⟨rfl, rfl, I2cState.noConfusion⟩
  · split
    · exact Or.inl ⟨rfl, rfl, I2cState.noConfusion⟩
    · split
      · split
        · exact Or.inl ⟨rfl, rfl, I2cState.noConfusion⟩
        · exact Or.inr ⟨rfl, rfl, rfl⟩
      · split
        · split
          · exact Or.inl ⟨rfl, rfl, I2cState.noConfusion⟩
          · exact Or.inr ⟨rfl, rfl, rfl⟩
        · exact Or.inr ⟨rfl, rfl, rfl⟩

/-- A new command leaves the recovery count. -/
theorem acceptCommand_recovery (p : Payload) : (s.acceptCommand p).recoveryCount = s.recoveryCount := by
  unfold acceptCommand
  dsimp only
  repeat' split
  all_goals rfl

/-- A command is accepted only while the controller is not busy. -/
theorem accepts_not_busy {req : Option Payload} (h : s.accepts req = true) : s.busy = false := by
  unfold accepts at h
  simp only [Bool.and_eq_true, Bool.not_eq_true'] at h
  exact h.1.2

/-- A command is no write to `CONTROL`. -/
theorem accepts_not_controls {req : Option Payload} (h : s.accepts req = true) : controls req = false := by
  unfold accepts at h
  unfold controls
  cases hp : writeOf req with
  | none => rfl
  | some p =>
    rw [hp, Bool.and_eq_true] at h
    have hoff : (offset p == 0x014 && p.wstrb.getLsbD 0) = true := h.2
    rw [Bool.and_eq_true, beq_iff_eq] at hoff
    show (offset p == 0x000 && p.wstrb.getLsbD 0) = false
    rw [hoff.1]
    rfl

/-- The cycle in which a command is accepted. -/
theorem accepted_next {req : Option Payload} (h : s.accepts req = true) (l : Lines) :
    ∃ p, writeOf req = some p ∧ s.next req l = s.acceptCommand p := by
  have hbusy := accepts_not_busy h
  have hnot := accepts_not_controls h
  have hcase := next_case s req l
  generalize s.next req l = t at hcase ⊢
  cases hcase with
  | reset hreq => exact absurd ((not_softReset hnot).symm.trans hreq) Bool.false_ne_true
  | recover hreq =>
    unfold recovers at hreq
    rw [hnot, Bool.false_and, Bool.false_and, Bool.false_and] at hreq
    exact absurd hreq Bool.false_ne_true
  | control hreq hsoft hrec => exact absurd (hnot.symm.trans hreq) Bool.false_ne_true
  | @accept p hc hreq hp => exact ⟨p, hp, rfl⟩
  | run hc hb => exact absurd (hbusy.symm.trans hb) Bool.false_ne_true
  | rest hc hacc hb => exact absurd (hacc.symm.trans h) Bool.false_ne_true

/-- A controller that is not busy is reset, starts a command, refuses it or stays idle. -/
theorem Consistent.next_idle (h : Consistent s) (hb : s.busy = false) (req : Option Payload) (l : Lines) :
    Consistent (s.next req l) := by
  have hcase := next_case s req l
  generalize s.next req l = t at hcase ⊢
  cases hcase with
  | reset hreq =>
    exact ⟨⟨fun hb => absurd hb Bool.false_ne_true, fun hs => absurd rfl hs⟩, fun _ => rfl, h.recovery⟩
  | recover hreq => exact ⟨⟨fun _ => I2cState.noConfusion, fun _ => rfl⟩, fun _ => rfl, Nat.zero_le 8⟩
  | control hreq hsoft hrec => exact ⟨h.busy_iff, h.not_done, h.recovery⟩
  | @accept p hc hreq hp =>
    have hrec : (s.acceptCommand p).recoveryCount.toNat ≤ 8 := by
      rw [acceptCommand_recovery]
      exact h.recovery
    rcases acceptCommand_cases (s := s) p with hgo | ⟨hb', hd, hs⟩
    · exact hgo.consistent hrec
    · exact Ended.consistent ⟨hb'.trans hb, hd, hs.trans (h.idle hb)⟩ hrec
  | run hc hb' => exact absurd (hb.symm.trans hb') Bool.false_ne_true
  | rest hc hacc _ =>
    obtain ⟨dn, an, da, te, al, bs, cd, ti, td, heq, -⟩ := written_eq s req
    rw [heq]
    exact ⟨h.busy_iff, fun hbusy => absurd (hb.symm.trans hbusy) Bool.false_ne_true, h.recovery⟩

/-- The flags fit the state after every cycle. -/
theorem Consistent.next (h : Consistent s) (req : Option Payload) (l : Lines) : Consistent (s.next req l) := by
  cases hb : s.busy with
  | false => exact h.next_idle hb req l
  | true =>
    have hrec := (h.goesOn hb).next_recovery h.recovery req l
    rcases (h.goesOn hb).next req l with ⟨-, hreset⟩ | ⟨-, hgo | hend⟩
    · rw [hreset] at hrec ⊢
      exact ⟨⟨fun hb => absurd hb Bool.false_ne_true, fun hs => absurd rfl hs⟩, fun _ => rfl, hrec⟩
    · exact hgo.consistent hrec
    · exact hend.consistent hrec

/-- They fit it in every state of a run. -/
theorem consistent_run (div timeout : BitVec 32) (w : Nat → Option Payload × Lines) (n : Nat) :
    Consistent ((machine div timeout).run w n) := by
  induction n with
  | zero =>
    exact ⟨⟨fun hb => absurd hb Bool.false_ne_true, fun hs => absurd rfl hs⟩, fun _ => rfl, Nat.zero_le 8⟩
  | succ n ih => exact ih.next _ _

end Consistent

/-! ## The end of a command -/

section Commands

variable {s : I2cMaster} {req : Option Payload} {l : Lines}

/-- A command that times out ends with the flags of the timeout, whatever is written in that cycle. -/
theorem timeout_next (h : GoesOn s) (ht : TimesOut s req) : s.next req l =
    { (s.written req).finish with timeoutError := true, busStuck := !l.scl || !l.sda, busActive := false } := by
  have hcase := busy_case h.busy h.state req l
  generalize s.next req l = t at hcase ⊢
  cases hcase with
  | timeout _ => rfl
  | reset hreq => exact absurd ((not_softReset ht.2.1).symm.trans hreq) Bool.false_ne_true
  | control hreq hsoft => exact absurd (ht.2.1.symm.trans hreq) Bool.false_ne_true
  | lost ha => exact absurd ht ha.2.2.1
  | wait hc ht' hr => exact absurd ht ht'
  | count hc ht' hr hl hp => exact absurd ht ht'
  | leave hc ht' hr hl hp => exact absurd ht ht'

/-- A timeout sets its flag, and the stuck flag if a line is low. -/
theorem timeout_flags (h : GoesOn s) (ht : TimesOut s req) : (s.next req l).timeoutError = true ∧
    (s.next req l).busStuck = (!l.scl || !l.sda) := by
  rw [timeout_next h ht]
  exact ⟨rfl, rfl⟩

/-- A command that times out does not go on. -/
theorem timeout_ended (h : GoesOn s) (ht : TimesOut s req) : Ended (s.next req l) := by
  rw [timeout_next h ht]
  exact ⟨rfl, rfl, rfl⟩

/-- A lost arbitration sets its flag, whatever is written in that cycle. -/
theorem lost_flag (h : GoesOn s) (ha : LosesArbitration s req l) : (s.next req l).arbitrationLost = true := by
  have hcase := busy_case h.busy h.state req l
  generalize s.next req l = t at hcase ⊢
  cases hcase with
  | lost _ => rfl
  | reset hreq => exact absurd ((not_softReset ha.2.1).symm.trans hreq) Bool.false_ne_true
  | control hreq hsoft => exact absurd (ha.2.1.symm.trans hreq) Bool.false_ne_true
  | timeout ht => exact absurd ht ha.2.2.1
  | wait hc ht hr => exact absurd (hr.symm.trans ha.2.2.2.1) Bool.false_ne_true
  | count hc ht hr hl hp => exact absurd (hl.symm.trans ha.2.2.2.2) Bool.false_ne_true
  | leave hc ht hr hl hp => exact absurd (hl.symm.trans ha.2.2.2.2) Bool.false_ne_true

/-- A stop that ends tells whether the bus is stuck, whatever is written in that cycle. -/
theorem stop_flag (h : GoesOn s) (hs : s.state = .stopRelease) (hend : Ended (s.next req l))
    (hsoft : softReset req = false) : (s.next req l).busStuck = (!l.scl || !l.sda) := by
  have hwritten := (h.written req).1
  have hstate : (s.written req).state = .stopRelease := by
    obtain ⟨dn, an, da, te, al, bs, cd, ti, td, heq, -⟩ := written_eq s req
    rw [heq]
    exact hs
  have hcase := busy_case h.busy h.state req l
  generalize s.next req l = t at hcase hend ⊢
  cases hcase with
  | reset hreq => exact absurd (hsoft.symm.trans hreq) Bool.false_ne_true
  | control hreq _ => exact absurd (hend.busy.symm.trans h.busy) Bool.false_ne_true
  | timeout _ => rfl
  | wait hc ht hr => exact absurd (hend.busy.symm.trans hwritten.busy) Bool.false_ne_true
  | lost ha =>
    have hlost := ha.2.2.2.2
    unfold lost at hlost
    rw [hs] at hlost
    exact absurd hlost Bool.false_ne_true
  | count hc ht hr hl hp => exact absurd (hend.busy.symm.trans hwritten.busy) Bool.false_ne_true
  | leave hc ht hr hl hp =>
    unfold leave
    rw [hstate]
    rfl

/-- A command that goes on without a write to `CONTROL` counts on its timer. -/
theorem GoesOn.next_timer (h : GoesOn s) (hc : controls req = false) (hgo : GoesOn (s.next req l)) :
    (s.next req l).commandTimer = s.commandTimer + 1 := by
  have hcase := busy_case h.busy h.state req l
  generalize s.next req l = t at hcase hgo ⊢
  cases hcase with
  | reset hreq => exact absurd hgo.busy Bool.false_ne_true
  | control hreq hsoft => exact absurd (hc.symm.trans hreq) Bool.false_ne_true
  | timeout ht => exact absurd hgo.busy Bool.false_ne_true
  | wait hc' ht hr => rfl
  | lost ha => exact absurd hgo.busy Bool.false_ne_true
  | count hc' ht hr hl hp => rfl
  | leave hc' ht hr hl hp =>
    by_cases hb : ((s.written req).leave l).busy = true
    · rw [if_pos hb]
    · rw [if_neg hb] at hgo
      exact absurd hgo.busy hb

variable {div timeout : BitVec 32} {w : Nat → Option Payload × Lines} {n : Nat}

/-- A command goes on until it is reset or ends. -/
theorem GoesOn.until (h : GoesOn ((machine div timeout).run w n)) : (∀ k ≥ n, GoesOn ((machine div timeout).run w k)) ∨
    ∃ m ≥ n, (∀ k, n ≤ k → k ≤ m → GoesOn ((machine div timeout).run w k)) ∧
      (softReset (w m).1 = true ∨ softReset (w m).1 = false ∧ Ended ((machine div timeout).run w (m + 1))) := by
  by_cases hall : ∀ k ≥ n, GoesOn ((machine div timeout).run w k)
  · exact Or.inl hall
  · refine Or.inr ?_
    -- the first cycle in which it does not go on
    have hex : ∃ j, ¬ GoesOn ((machine div timeout).run w (n + 1 + j)) := by
      by_contra hno
      refine hall fun k hk => ?_
      rcases Nat.eq_or_lt_of_le hk with heq | hlt
      · rw [← heq]
        exact h
      · obtain ⟨j, rfl⟩ := Nat.exists_eq_add_of_le hlt
        by_contra hj
        exact hno ⟨j, hj⟩
    classical
    obtain ⟨j, hj, hfirst⟩ : ∃ j, ¬ GoesOn ((machine div timeout).run w (n + 1 + j)) ∧
        ∀ i < j, GoesOn ((machine div timeout).run w (n + 1 + i)) :=
      ⟨Nat.find hex, Nat.find_spec hex, fun i hi => not_not.mp (Nat.find_min hex hi)⟩
    have hbefore : ∀ k, n ≤ k → k ≤ n + j → GoesOn ((machine div timeout).run w k) := by
      intro k hk hkj
      rcases Nat.eq_or_lt_of_le hk with heq | hlt
      · rw [← heq]
        exact h
      · obtain ⟨i, rfl⟩ := Nat.exists_eq_add_of_le hlt
        exact hfirst i (by omega)
    refine ⟨n + j, Nat.le_add_right n j, hbefore, ?_⟩
    rw [Nat.add_right_comm] at hj
    rcases (hbefore (n + j) (Nat.le_add_right n j) (Nat.le_refl _)).next (w (n + j)).1 (w (n + j)).2 with
      ⟨hsoft, -⟩ | ⟨hsoft, hgo | hend⟩
    · exact Or.inl hsoft
    · exact absurd hgo hj
    · exact Or.inr ⟨hsoft, hend⟩

/-- With a timeout that stays as it is, a command does not go on forever. -/
theorem GoesOn.ends (h : GoesOn ((machine div timeout).run w n)) {T : BitVec 32} (hT : T ≠ 0)
    (hfrom : ∀ k ≥ n, ((machine div timeout).run w k).timeout = T ∧ controls (w k).1 = false) :
    ∃ m ≥ n, (∀ k, n ≤ k → k ≤ m → GoesOn ((machine div timeout).run w k)) ∧
      Ended ((machine div timeout).run w (m + 1)) := by
  rcases h.until with hall | ⟨m, hm, hgo, hend⟩
  · -- the timer comes closer to the timeout in every cycle
    have hstep : ∀ k ≥ n, GoesOn ((machine div timeout).run w k) → False ∨
        (GoesOn ((machine div timeout).run w (k + 1)) ∧
          (T - 1 - ((machine div timeout).run w (k + 1)).commandTimer).toNat <
            (T - 1 - ((machine div timeout).run w k).commandTimer).toNat) := by
      intro k hk hgo
      obtain ⟨htimeout, hc⟩ := hfrom k hk
      have hnext := hall (k + 1) (Nat.le_succ_of_le hk)
      have htimer : ((machine div timeout).run w (k + 1)).commandTimer = _ := hgo.next_timer (l := (w k).2) hc hnext
      have hne : (T - 1 - ((machine div timeout).run w k).commandTimer).toNat ≠ 0 := by
        intro hz
        have hsub : T - 1 - ((machine div timeout).run w k).commandTimer = 0#32 := BitVec.eq_of_toNat_eq hz
        have ht : TimesOut ((machine div timeout).run w k) (w k).1 := by
          refine ⟨hgo.busy, hc, ?_, ?_⟩
          · rw [htimeout]
            exact hT
          · rw [htimeout]
            rw [BitVec.sub_eq_iff_eq_add, BitVec.zero_add] at hsub
            exact hsub.symm
        have hended : Ended ((machine div timeout).run w (k + 1)) := timeout_ended hgo ht
        exact Bool.false_ne_true (hended.busy.symm.trans hnext.busy)
      refine Or.inr ⟨hnext, ?_⟩
      rw [htimer, ← BitVec.sub_sub, toNat_pred _ hne]
      exact Nat.sub_lt (Nat.pos_of_ne_zero hne) Nat.one_pos
    obtain ⟨k, -, hk⟩ := Machine.eventually_of_rank (I := GoesOn) (P := fun _ => False)
      (f := fun t => (T - 1 - t.commandTimer).toNat) h hstep
    exact hk.elim
  · refine ⟨m, hm, hgo, ?_⟩
    rcases hend with hsoft | ⟨-, hend⟩
    · rw [not_softReset (hfrom m hm).2] at hsoft
      exact absurd hsoft Bool.false_ne_true
    · exact hend

end Commands

end I2cMaster

end SocRV
