import SocRV.Soc.I2cInvariant

/-!
# The counters of the I2C controller

The phase counter and the command timer are compared with their limits by equality.  They stay within them as long as no
write puts a limit below what has been counted.
-/

namespace SocRV

namespace I2cMaster

/-- The counters are within their limits. -/
structure InRange (s : I2cMaster) : Prop where
  timer : s.busy = true → s.timeout ≠ 0 → s.commandTimer < s.timeout
  phase : s.phaseCount ≤ s.clockDiv

/-- The phase is the last one of its command. -/
def last (s : I2cMaster) : Bool :=
  match s.state with
  | .startSclLow | .stopRelease | .writeAckFinish | .readAckFinish => true
  | _ => false

/-- A running command counts on in its phase, unless it is held up or times out. -/
def Advances (s : I2cMaster) (req : Option Payload) (l : Lines) : Prop :=
  s.busy = true ∧ ¬ TimesOut s req ∧ s.ready l = true ∧ s.lost l = false ∧ s.phaseCount ≠ s.clockDiv

/-- A running command is not over with this cycle. -/
def Continues (s : I2cMaster) (req : Option Payload) (l : Lines) : Prop :=
  s.busy = true ∧ ¬ TimesOut s req ∧ ¬ LosesArbitration s req l ∧
    ¬(s.ready l = true ∧ s.lost l = false ∧ s.phaseCount = s.clockDiv ∧ s.last = true)

/-- A command that counts on in its phase is not over. -/
theorem Advances.continues {s : I2cMaster} {req : Option Payload} {l : Lines} (h : Advances s req l) :
    Continues s req l :=
  ⟨h.1, h.2.1, fun ha => Bool.false_ne_true (h.2.2.2.1.symm.trans ha.2.2.2.2), fun hend => h.2.2.2.2 hend.2.2.1⟩

/-- A write sets `CLOCK_DIV` below the phase counter that the cycle leaves. -/
def LowersClockDiv (s : I2cMaster) (req : Option Payload) (l : Lines) : Prop :=
  ∃ p, writeOf req = some p ∧ offset p = 0x008 ∧ Advances s req l ∧
    MachineTimer.mergeWstrb s.clockDiv p.wdata p.wstrb < s.phaseCount + 1

/-- A write switches the timeout on, not above the command timer that the cycle leaves. -/
def LowersTimeout (s : I2cMaster) (req : Option Payload) (l : Lines) : Prop :=
  ∃ p, writeOf req = some p ∧ offset p = 0x018 ∧ Continues s req l ∧
    MachineTimer.mergeWstrb s.timeout p.wdata p.wstrb ≠ 0 ∧
    MachineTimer.mergeWstrb s.timeout p.wdata p.wstrb ≤ s.commandTimer + 1

section Counters

variable {s : I2cMaster} {req : Option Payload} {l : Lines}

/-- `CLOCK_DIV` and `TIMEOUT` after the register writes. -/
theorem written_clockDiv : (s.written req).clockDiv =
    (writeOf req).elim s.clockDiv fun p =>
      if offset p = 0x008 then MachineTimer.mergeWstrb s.clockDiv p.wdata p.wstrb else s.clockDiv := by
  unfold written
  cases writeOf req with
  | none => rfl
  | some p =>
    show (s.writeRegisters p).clockDiv = _
    unfold writeRegisters
    by_cases h4 : (decide (offset p = 0x004) && p.wstrb.getLsbD 0) = true
    · rw [if_pos h4]
      rw [Bool.and_eq_true, decide_eq_true_eq] at h4
      simp [h4.1]
    · rw [if_neg h4]
      by_cases h8 : offset p = 0x008
      · simp [h8]
      · rw [if_neg h8]
        show _ = if offset p = 0x008 then _ else s.clockDiv
        rw [if_neg h8]
        split
        · rfl
        · split <;> rfl

@[inherit_doc written_clockDiv]
theorem written_timeout : (s.written req).timeout =
    (writeOf req).elim s.timeout fun p =>
      if offset p = 0x018 then MachineTimer.mergeWstrb s.timeout p.wdata p.wstrb else s.timeout := by
  unfold written
  cases writeOf req with
  | none => rfl
  | some p =>
    show (s.writeRegisters p).timeout = _
    unfold writeRegisters
    by_cases h4 : (decide (offset p = 0x004) && p.wstrb.getLsbD 0) = true
    · rw [if_pos h4]
      rw [Bool.and_eq_true, decide_eq_true_eq] at h4
      simp [h4.1]
    · rw [if_neg h4]
      by_cases h8 : offset p = 0x008
      · simp [h8]
      · rw [if_neg h8]
        by_cases h18 : offset p = 0x018
        · simp [h18]
        · rw [if_neg h18]
          show _ = if offset p = 0x018 then _ else s.timeout
          rw [if_neg h18]
          split <;> rfl

/-- Leaving a phase does not touch the limits, restarts the phase counter and is the end in the last phase. -/
theorem leave_config (h : s.state ≠ .idle) (l : Lines) : (s.leave l).clockDiv = s.clockDiv ∧
    (s.leave l).timeout = s.timeout ∧ (s.leave l).phaseCount = 0 ∧
    (s.leave l).busy = (s.busy && !s.last) := by
  unfold leave last
  cases hs : s.state <;> dsimp only
  case idle => exact absurd hs h
  case writeBitHigh => split <;> exact ⟨rfl, rfl, rfl, (Bool.and_true _).symm⟩
  case readBitHigh => split <;> exact ⟨rfl, rfl, rfl, (Bool.and_true _).symm⟩
  case recoverHigh => split <;> exact ⟨rfl, rfl, rfl, (Bool.and_true _).symm⟩
  case startSclLow => exact ⟨rfl, rfl, rfl, (Bool.and_false _).symm⟩
  case stopRelease => exact ⟨rfl, rfl, rfl, (Bool.and_false _).symm⟩
  case writeAckFinish => exact ⟨rfl, rfl, rfl, (Bool.and_false _).symm⟩
  case readAckFinish => exact ⟨rfl, rfl, rfl, (Bool.and_false _).symm⟩
  all_goals exact ⟨rfl, rfl, rfl, (Bool.and_true _).symm⟩

/-- The limits after a cycle are those that the writes leave. -/
theorem next_limits (h : Consistent s) : (s.next req l).clockDiv = (s.written req).clockDiv ∧
    (s.next req l).timeout = (s.written req).timeout := by
  cases hb : s.busy with
  | true =>
    have hgo := h.goesOn hb
    have hstate : (s.written req).state ≠ .idle := ((hgo.written req).1).state
    have hcase := busy_case hgo.busy hgo.state req l
    generalize s.next req l = t at hcase ⊢
    cases hcase with
    | reset hreq =>
      rw [written_control (Bool.and_eq_true_iff.mp hreq).1]
      exact ⟨rfl, rfl⟩
    | control hreq hsoft =>
      rw [written_control hreq]
      exact ⟨rfl, rfl⟩
    | timeout ht => exact ⟨rfl, rfl⟩
    | wait hc ht hr => exact ⟨rfl, rfl⟩
    | lost ha => exact ⟨rfl, rfl⟩
    | count hc ht hr hl hp => exact ⟨rfl, rfl⟩
    | leave hc ht hr hl hp =>
      obtain ⟨hdiv, htimeout, -⟩ := leave_config hstate l
      split
      · exact ⟨hdiv, htimeout⟩
      · exact ⟨hdiv, htimeout⟩
  | false =>
    have hcase := next_case s req l
    generalize s.next req l = t at hcase ⊢
    cases hcase with
    | reset hreq =>
      rw [written_control (Bool.and_eq_true_iff.mp hreq).1]
      exact ⟨rfl, rfl⟩
    | recover hreq =>
      have hc : controls req = true := by
        unfold recovers at hreq
        simp only [Bool.and_eq_true] at hreq
        exact hreq.1.1.1
      rw [written_control hc]
      exact ⟨rfl, rfl⟩
    | control hreq hsoft hrec =>
      rw [written_control hreq]
      exact ⟨rfl, rfl⟩
    | @accept p hc hreq hp =>
      have hwritten : s.written req = s := by
        unfold accepts at hreq
        unfold written
        rw [hp, Bool.and_eq_true] at hreq
        have hoff : (offset p == 0x014 && p.wstrb.getLsbD 0) = true := hreq.2
        rw [Bool.and_eq_true, beq_iff_eq] at hoff
        rw [hp]
        exact writeRegisters_other (Or.inr hoff.1)
      rw [hwritten]
      unfold acceptCommand
      dsimp only
      repeat' split
      all_goals exact ⟨rfl, rfl⟩
    | run hc hb' => exact absurd (hb.symm.trans hb') Bool.false_ne_true
    | rest hc hacc _ => exact ⟨rfl, rfl⟩

/-- The counters of a running command after a cycle. -/
theorem GoesOn.next_counters (h : GoesOn s) (req : Option Payload) (l : Lines) :
    (softReset req = true ∧ (s.next req l).busy = false ∧ (s.next req l).phaseCount = 0) ∨
    (controls req = true ∧ (s.next req l).busy = true ∧ (s.next req l).phaseCount = s.phaseCount ∧
      (s.next req l).commandTimer = s.commandTimer) ∨
    (controls req = false ∧
      (Advances s req l ∧ (s.next req l).phaseCount = s.phaseCount + 1 ∨
        ¬ Advances s req l ∧ (s.next req l).phaseCount = 0) ∧
      (Continues s req l ∧ (s.next req l).busy = true ∧ (s.next req l).commandTimer = s.commandTimer + 1 ∨
        ¬ Continues s req l ∧ (s.next req l).busy = false)) := by
  have hwritten := (h.written req).1
  have hlast : (s.written req).last = s.last := by
    obtain ⟨dn, an, da, te, al, bs, cd, ti, td, heq, -⟩ := written_eq s req
    rw [heq]
    rfl
  have hcase := busy_case h.busy h.state req l
  generalize s.next req l = t at hcase ⊢
  cases hcase with
  | reset hreq => exact Or.inl ⟨hreq, rfl, rfl⟩
  | control hreq hsoft => exact Or.inr (Or.inl ⟨hreq, h.busy, rfl, rfl⟩)
  | timeout ht =>
    exact Or.inr (Or.inr ⟨ht.2.1, Or.inr ⟨fun ha => ha.2.1 ht, rfl⟩, Or.inr ⟨fun hc => hc.2.1 ht, rfl⟩⟩)
  | wait hc ht hr =>
    have hnot : ¬ s.ready l = true := by
      rw [hr]
      exact Bool.false_ne_true
    exact Or.inr (Or.inr ⟨hc, Or.inr ⟨fun ha => hnot ha.2.2.1, rfl⟩,
      Or.inl ⟨⟨h.busy, ht, fun ha => hnot ha.2.2.2.1, fun hend => hnot hend.1⟩, hwritten.busy, rfl⟩⟩)
  | lost ha =>
    refine Or.inr (Or.inr ⟨ha.2.1, Or.inr ⟨fun hadv => ?_, rfl⟩, Or.inr ⟨fun hc => hc.2.2.1 ha, rfl⟩⟩)
    exact Bool.false_ne_true (hadv.2.2.2.1.symm.trans ha.2.2.2.2)
  | count hc ht hr hl hp =>
    refine Or.inr (Or.inr ⟨hc, Or.inl ⟨⟨h.busy, ht, hr, hl, hp⟩, rfl⟩,
      Or.inl ⟨⟨h.busy, ht, fun ha => ?_, fun hend => hp hend.2.2.1⟩, hwritten.busy, rfl⟩⟩)
    exact Bool.false_ne_true (hl.symm.trans ha.2.2.2.2)
  | leave hc ht hr hl hp =>
    obtain ⟨-, -, hphase, hbusy⟩ := leave_config hwritten.state l
    rw [hwritten.busy, hlast, Bool.true_and] at hbusy
    rw [hbusy]
    cases hs : s.last with
    | true =>
      rw [hs] at hbusy
      exact Or.inr (Or.inr ⟨hc, Or.inr ⟨fun ha => ha.2.2.2.2 hp, hphase⟩,
        Or.inr ⟨fun hc => hc.2.2.2 ⟨hr, hl, hp, hs⟩, hbusy⟩⟩)
    | false =>
      rw [hs] at hbusy
      refine Or.inr (Or.inr ⟨hc, Or.inr ⟨fun ha => ha.2.2.2.2 hp, hphase⟩,
        Or.inl ⟨⟨h.busy, ht, fun ha => ?_, fun hend => ?_⟩, hbusy, rfl⟩⟩)
      · exact Bool.false_ne_true (hl.symm.trans ha.2.2.2.2)
      · exact Bool.false_ne_true (hs.symm.trans hend.2.2.2)

/-- A controller that is not busy has its counters at zero when it becomes so or starts a command. -/
theorem Consistent.idle_counters (hb : s.busy = false) (hzero : s.phaseCount = 0) (req : Option Payload)
    (l : Lines) : (s.next req l).phaseCount = 0 ∧ ((s.next req l).busy = true → (s.next req l).commandTimer = 0) := by
  have hcase := next_case s req l
  generalize s.next req l = t at hcase ⊢
  cases hcase with
  | reset hreq => exact ⟨rfl, fun _ => rfl⟩
  | recover hreq => exact ⟨rfl, fun _ => rfl⟩
  | control hreq hsoft hrec => exact ⟨hzero, fun hb' => absurd (hb.symm.trans hb') Bool.false_ne_true⟩
  | accept hc hreq hp =>
    unfold acceptCommand
    dsimp only
    repeat' split
    all_goals exact ⟨rfl, fun _ => rfl⟩
  | run hc hb' => exact absurd (hb.symm.trans hb') Bool.false_ne_true
  | rest hc hacc _ =>
    obtain ⟨dn, an, da, te, al, bs, cd, ti, td, heq, -⟩ := written_eq s req
    rw [heq]
    exact ⟨hzero, fun hb' => absurd (hb.symm.trans hb') Bool.false_ne_true⟩

/-! ## The counters within their limits -/

/-- In range, only a write can put `CLOCK_DIV` below the next phase count. -/
theorem lowersClockDiv_iff (hr : s.phaseCount ≤ s.clockDiv) :
    LowersClockDiv s req l ↔ Advances s req l ∧ (s.written req).clockDiv < s.phaseCount + 1 := by
  rw [written_clockDiv]
  constructor
  · rintro ⟨p, hp, hoff, hadv, hlow⟩
    rw [hp]
    refine ⟨hadv, ?_⟩
    show (if offset p = 0x008 then _ else s.clockDiv) < _
    rw [if_pos hoff]
    exact hlow
  · rintro ⟨hadv, hlow⟩
    have hnot : ¬ s.clockDiv < s.phaseCount + 1 := BitVec.not_lt.mpr (count_le hr hadv.2.2.2.2)
    cases hp : writeOf req with
    | none =>
      rw [hp] at hlow
      exact absurd hlow hnot
    | some p =>
      rw [hp] at hlow
      have hlow' : (if offset p = 0x008 then MachineTimer.mergeWstrb s.clockDiv p.wdata p.wstrb else s.clockDiv) <
          s.phaseCount + 1 := hlow
      by_cases hoff : offset p = 0x008
      · rw [if_pos hoff] at hlow'
        exact ⟨p, hp, hoff, hadv, hlow'⟩
      · rw [if_neg hoff] at hlow'
        exact absurd hlow' hnot

/-- In range, only a write can put `TIMEOUT` at or below the next value of the command timer. -/
theorem lowersTimeout_iff (hc : controls req = false) (hr : s.timeout ≠ 0 → s.commandTimer < s.timeout) :
    LowersTimeout s req l ↔ Continues s req l ∧ (s.written req).timeout ≠ 0 ∧
      (s.written req).timeout ≤ s.commandTimer + 1 := by
  rw [written_timeout]
  constructor
  · rintro ⟨p, hp, hoff, hgo, hne, hle⟩
    rw [hp]
    refine ⟨hgo, ?_⟩
    show (if offset p = 0x018 then _ else s.timeout) ≠ 0 ∧ (if offset p = 0x018 then _ else s.timeout) ≤ _
    rw [if_pos hoff]
    exact ⟨hne, hle⟩
  · rintro ⟨hgo, hne, hle⟩
    have hnot : s.timeout ≠ 0 → ¬ s.timeout ≤ s.commandTimer + 1 := fun ht =>
      BitVec.not_le.mpr (count_lt (hr ht) fun hlast => hgo.2.1 ⟨hgo.1, hc, ht, hlast⟩)
    cases hp : writeOf req with
    | none =>
      rw [hp] at hne hle
      exact absurd hle (hnot hne)
    | some p =>
      rw [hp] at hne hle
      have hboth : (if offset p = 0x018 then MachineTimer.mergeWstrb s.timeout p.wdata p.wstrb else s.timeout) ≠ 0 ∧
          (if offset p = 0x018 then MachineTimer.mergeWstrb s.timeout p.wdata p.wstrb else s.timeout) ≤
            s.commandTimer + 1 := ⟨hne, hle⟩
      by_cases hoff : offset p = 0x018
      · rw [if_pos hoff] at hboth
        exact ⟨p, hp, hoff, hgo, hboth⟩
      · rw [if_neg hoff] at hboth
        exact absurd hboth.2 (hnot hboth.1)

/-- A write to `CONTROL` lowers no limit. -/
theorem not_lowers_of_controls (hc : controls req = true) :
    ¬ LowersClockDiv s req l ∧ ¬ LowersTimeout s req l := by
  have hother : ∀ p, writeOf req = some p → offset p = 0x000 := by
    intro p hp
    unfold controls at hc
    rw [hp] at hc
    have hoff : (offset p == 0x000 && p.wstrb.getLsbD 0) = true := hc
    rw [Bool.and_eq_true, beq_iff_eq] at hoff
    exact hoff.1
  constructor
  · rintro ⟨p, hp, hoff, -⟩
    rw [hother p hp] at hoff
    exact absurd hoff (by decide)
  · rintro ⟨p, hp, hoff, -⟩
    rw [hother p hp] at hoff
    exact absurd hoff (by decide)

/-- A cycle of a running command leaves the counters in range exactly when no write lowers a limit. -/
theorem GoesOn.inRange_iff (h : GoesOn s) (hcons : Consistent s) (hr : InRange s) :
    InRange (s.next req l) ↔ ¬ LowersClockDiv s req l ∧ ¬ LowersTimeout s req l := by
  have hlimits : (s.next req l).clockDiv = (s.written req).clockDiv ∧
      (s.next req l).timeout = (s.written req).timeout := next_limits hcons
  obtain ⟨hdiv, htimeout⟩ := hlimits
  rcases h.next_counters req l with ⟨hsoft, hb, hphase⟩ | ⟨hc, -, hphase, htimer⟩ | ⟨hc, hphase, htimer⟩
  · have hlow := not_lowers_of_controls (s := s) (l := l) (Bool.and_eq_true_iff.mp hsoft).1
    refine ⟨fun _ => hlow, fun _ => ⟨fun hb' => absurd (hb.symm.trans hb') Bool.false_ne_true, ?_⟩⟩
    rw [hphase]
    exact Nat.zero_le _
  · rw [written_control hc] at hdiv htimeout
    refine ⟨fun _ => not_lowers_of_controls hc, fun _ => ⟨fun _ hne => ?_, ?_⟩⟩
    · rw [htimeout] at hne
      rw [htimer, htimeout]
      exact hr.timer h.busy hne
    · rw [hphase, hdiv]
      exact hr.phase
  · rw [lowersClockDiv_iff hr.phase, lowersTimeout_iff hc (hr.timer h.busy), ← hdiv, ← htimeout]
    have hphase_iff : (s.next req l).phaseCount ≤ (s.next req l).clockDiv ↔
        ¬(Advances s req l ∧ (s.next req l).clockDiv < s.phaseCount + 1) := by
      rcases hphase with ⟨hadv, heq⟩ | ⟨hnot, heq⟩
      · rw [heq, and_iff_right hadv, BitVec.not_lt]
      · rw [heq]
        exact ⟨fun _ hlow => hnot hlow.1, fun _ => Nat.zero_le _⟩
    have htimer_iff : ((s.next req l).busy = true → (s.next req l).timeout ≠ 0 →
        (s.next req l).commandTimer < (s.next req l).timeout) ↔
        ¬(Continues s req l ∧ (s.next req l).timeout ≠ 0 ∧ (s.next req l).timeout ≤ s.commandTimer + 1) := by
      rcases htimer with ⟨hgo, hb, heq⟩ | ⟨hnot, hb⟩
      · rw [heq, and_iff_right hgo, not_and, BitVec.not_le]
        exact ⟨fun hlt => hlt hb, fun hlt _ => hlt⟩
      · exact ⟨fun _ hlow => hnot hlow.1, fun _ hb' => absurd (hb.symm.trans hb') Bool.false_ne_true⟩
    exact ⟨fun hr' => ⟨hphase_iff.mp hr'.phase, htimer_iff.mp hr'.timer⟩,
      fun hlow => ⟨htimer_iff.mpr hlow.2, hphase_iff.mpr hlow.1⟩⟩

/-- Every cycle leaves the counters in range exactly when no write lowers a limit. -/
theorem InRange.next_iff (hcons : Consistent s) (hzero : s.busy = false → s.phaseCount = 0) (hr : InRange s) :
    InRange (s.next req l) ↔ ¬ LowersClockDiv s req l ∧ ¬ LowersTimeout s req l := by
  cases hb : s.busy with
  | true => exact (hcons.goesOn hb).inRange_iff hcons hr
  | false =>
    obtain ⟨hphase, htimer⟩ := Consistent.idle_counters hb (hzero hb) req l
    have hclock : ¬ LowersClockDiv s req l := by
      rintro ⟨p, -, -, hadv, -⟩
      exact Bool.false_ne_true (hb.symm.trans hadv.1)
    have htimeout : ¬ LowersTimeout s req l := by
      rintro ⟨p, -, -, hgo, -⟩
      exact Bool.false_ne_true (hb.symm.trans hgo.1)
    refine ⟨fun _ => ⟨hclock, htimeout⟩, fun _ => ⟨fun hb' hne => ?_, ?_⟩⟩
    · rw [htimer hb']
      exact Nat.pos_of_ne_zero fun h => hne (BitVec.eq_of_toNat_eq h)
    · rw [hphase]
      exact Nat.zero_le _

/-- Between commands the phase counter is zero. -/
theorem idle_phase (hcons : Consistent s) (hzero : s.busy = false → s.phaseCount = 0)
    (hb : (s.next req l).busy = false) : (s.next req l).phaseCount = 0 := by
  cases hbusy : s.busy with
  | false => exact (Consistent.idle_counters hbusy (hzero hbusy) req l).1
  | true =>
    rcases (hcons.goesOn hbusy).next_counters req l with ⟨-, -, hphase⟩ | ⟨-, hb', -⟩ | ⟨-, hphase, htimer⟩
    · exact hphase
    · exact absurd (hb.symm.trans hb') Bool.false_ne_true
    · rcases hphase with ⟨hadv, -⟩ | ⟨-, hphase⟩
      · rcases htimer with ⟨-, hb', -⟩ | ⟨hnot, -⟩
        · exact absurd (hb.symm.trans hb') Bool.false_ne_true
        · exact absurd hadv.continues hnot
      · exact hphase

/-- So it is in every state of a run. -/
theorem idle_phase_run (div timeout : BitVec 32) (w : Nat → Option Payload × Lines) (n : Nat) :
    ((machine div timeout).run w n).busy = false → ((machine div timeout).run w n).phaseCount = 0 := by
  induction n with
  | zero => exact fun _ => rfl
  | succ n ih => exact idle_phase (consistent_run div timeout w n) ih

end Counters

end I2cMaster

end SocRV
