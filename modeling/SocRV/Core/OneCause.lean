import SocRV.Core.FlushPath

/-!
# One cause at a time

What E4 shows to the trap unit belongs to one pair of instructions, and an instruction has one reason to flush.
`OneCause` says which signals cannot be up together for that reason.  It leaves three ways in which two sources of the
flush path are selected at once: a misprediction in the pair of a misaligned target, an access that faults while the
pipeline is frozen and the instruction in E4 is to be fetched again, and the wake-up from a halt.
-/

namespace SocRV

/-- The packet of an instruction that neither traps by itself nor flushes what is behind it. -/
structure TrapPkt.Plain (p : TrapPkt) : Prop where
  legal : p.legal = true
  icaf : p.icaf = false
  fenceI : p.fenceI = false
  itype : p.itype = .other

namespace Tlu

/-- The signals of E4 belong to one pair. -/
structure OneCause (s : Tlu) (i : TluIn) : Prop where
  blocked : s.lsuBlockInterruptsE4 = true → i.i0ValidE4 = false ∧ i.i1ValidE4 = false
  branch0 : i.i0FlushLowerE4 = true → i.i0ValidE4 = true ∧ i.packetE4.Plain ∧
    (i.i0BrErrorE4 || i.i0BrStartErrorE4) = false ∧ s.lsuI0ExcDc4Raw = false ∧
    (i.i0BrMpE4 = true ∨ i.i1ValidE4 = false)
  branch1 : i.i1FlushLowerE4 = true →
    i.i1ValidE4 = true ∧ (i.i1BrErrorE4 || i.i1BrStartErrorE4) = false ∧ s.lsuI1ExcDc4Raw = false
  pair : i.i1ValidE4 = true → i.packetE4.Plain
  error0 : i.i0ValidE4 = true → (i.i0BrErrorE4 || i.i0BrStartErrorE4) = true →
    i.packetE4.fenceI = false ∧ i.packetE4.itype ≠ .mret ∧ s.lsuI0ExcDc4Raw = false
  error1 : i.i1ValidE4 = true → (i.i1BrErrorE4 || i.i1BrStartErrorE4) = true → s.lsuI1ExcDc4Raw = false
  taken0 : i.i0ValidE4 = true → i.i0InstMisalignedE4 = true → i.packetE4.fenceI = false ∧ i.packetE4.itype ≠ .mret
  sync : i.i0ValidE4 = true → i.packetE4.fenceI = true ∨ i.packetE4.itype = .mret →
    i.packetE4.legal = true ∧ i.packetE4.icaf = false ∧ s.lsuI0ExcDc4Raw = false ∧
      i.packetE4.itype ≠ .ebreak ∧ i.packetE4.itype ≠ .ecall ∧ (i.packetE4.fenceI = false ∨ i.packetE4.itype ≠ .mret)
  access1 : s.lsuI1ExcDc4Raw = true → s.flushLowerWb = false → i.i1ValidE4 = true ∨ i.i0ValidE4 = false

/-- The signals that come from outside E4: the triggers compare what the source says, the flushes without a cause in
E4 are those of the debugger, of wake-ups and of a pause, there is no debugger, and the core is not woken over an
instruction or a fault in E4. -/
structure Wired (s : Tlu) (i : TluIn) (x : FlushPathIn) : Prop where
  trigger0 : i.i0TriggerHitRawE4 = s.i0TriggerHitRaw i x
  trigger1 : i.i1TriggerHitRawE4 = s.i1TriggerHitRaw i x
  syncFlush : i.syncFlushOther = (x.debugResumeReqF || selNpcWb x || x.wrPauseWb)
  halted : i.dbgHalted = false
  resume : x.debugResumeReqF = false
  wake : (x.cpuRunReqD1 || x.pauseExpiredE4) = true → i.i0ValidE4 = false ∧ i.i1ValidE4 = false ∧
    s.lsuErrorPktDc4.excValid = false ∧ s.lsuBlockInterruptsE4 = false

/-- None of the three ways in which two sources are selected together. -/
structure Clean (s : Tlu) (i : TluIn) (x : FlushPathIn) : Prop where
  target : (s.instMisalignedE4 i && (s.i0MpE4 i || s.i1MpE4 i)) = false
  frozen : (s.freezeRfpcE4 i && s.lsuI0ExcDc4 i) = false
  wake : (x.cpuRunReqD1 && selNpcWb x) = false

variable {s : Tlu} {i : TluIn} {x : FlushPathIn}

/-! ## Interrupts -/

/-- An interrupt is taken only in a cycle without a flush from E4 and without `mret`. -/
theorem of_interruptValid (h : s.interruptValid i = true) : s.synchronousFlushE4 i = false ∧ s.mretE4 i = false := by
  unfold interruptValid at h
  rw [Bool.or_eq_true, Bool.and_eq_true, Bool.not_eq_true'] at h
  rcases h with ⟨-, hblock⟩ | hnmi
  · unfold blockInterrupts at hblock
    simp only [Bool.or_eq_false_iff] at hblock
    exact ⟨hblock.1.1.1.2, hblock.2⟩
  · unfold takeNmi at hnmi
    simp only [Bool.and_eq_true, Bool.not_eq_true'] at hnmi
    exact ⟨hnmi.1.1.2, hnmi.1.2⟩

/-- An NMI is taken only without a synchronous flush or an `mret`. -/
theorem of_takeNmi (h : s.takeNmi i = true) : s.synchronousFlushE4 i = false ∧ s.mretE4 i = false := by
  refine of_interruptValid ?_
  rw [interruptValid, h, Bool.or_true]

/-- With a flush from E4 there is no interrupt. -/
theorem no_interrupt (h : s.synchronousFlushE4 i = true) : s.interruptValid i = false ∧ s.takeNmi i = false := by
  constructor
  · rw [← Bool.not_eq_true]
    exact fun hint => Bool.false_ne_true ((of_interruptValid hint).1.symm.trans h)
  · rw [← Bool.not_eq_true]
    exact fun hnmi => Bool.false_ne_true ((of_takeNmi hnmi).1.symm.trans h)

/-! ## Triggers -/

theorem chainMasked_zero (chain : BitVec 3) : chainMasked 0#4 chain = 0#4 := by
  simp [chainMasked]

/-- A trigger hits only a valid instruction. -/
theorem Wired.valid0 (h : Wired s i x) (ht : s.i0TriggerHitE4 i = true) : i.i0ValidE4 = true := by
  unfold i0TriggerHitE4 at ht
  simp only [Bool.and_eq_true, Bool.not_eq_true', Bool.or_eq_false_iff] at ht
  obtain ⟨⟨-, hpulse⟩, hraw⟩ := ht
  by_contra hv
  rw [Bool.not_eq_true] at hv
  rw [h.trigger0, i0TriggerHitRaw, i0TriggerE4, i0TriggerEvalE4, hv, hpulse] at hraw
  simp [all4, chainMasked_zero] at hraw

@[inherit_doc Wired.valid0]
theorem Wired.valid1 (h : Wired s i x) (ht : s.i1TriggerHitE4 i = true) : i.i1ValidE4 = true := by
  unfold i1TriggerHitE4 at ht
  simp only [Bool.and_eq_true, Bool.not_eq_true', Bool.or_eq_false_iff] at ht
  obtain ⟨⟨-, hpulse⟩, hraw⟩ := ht
  by_contra hv
  rw [Bool.not_eq_true] at hv
  rw [h.trigger1, i1TriggerHitRaw, i1TriggerE4, i1TriggerEvalE4, hv, hpulse] at hraw
  simp [all4, chainMasked_zero] at hraw

/-! ## What each source needs -/

/-- A misprediction in slot `i0` is a flush from there, without a trigger. -/
theorem of_i0MpE4 (h : s.i0MpE4 i = true) : i.i0FlushLowerE4 = true ∧ s.i0TriggerHitE4 i = false := by
  unfold i0MpE4 at h
  rw [Bool.and_eq_true, Bool.not_eq_true'] at h
  exact h

/-- A misprediction in slot `i1` is a flush from there, without a trigger. -/
theorem of_i1MpE4 (h : s.i1MpE4 i = true) : i.i1FlushLowerE4 = true ∧ s.triggerHitE4 i = false := by
  unfold i1MpE4 at h
  rw [Bool.and_eq_true, Bool.not_eq_true'] at h
  exact h

/-- Slot `i0` is fetched again when `freeze_rfpc_e4` says so, or for a branch error of its own. -/
theorem of_rfpcI0E4 (h : s.rfpcI0E4 i = true) : s.freezeRfpcE4 i = true ∨
    (i.i0ValidE4 = true ∧ (i.i0BrErrorE4 || i.i0BrStartErrorE4) = true ∧ s.i0TriggerHitE4 i = false) := by
  unfold rfpcI0E4 at h
  simp only [Bool.or_eq_true, Bool.and_eq_true, Bool.not_eq_true'] at h
  rcases h with h | ⟨⟨⟨hv, -⟩, herr⟩, ht⟩
  · exact Or.inl h
  · exact Or.inr ⟨hv, Bool.or_eq_true_iff.mpr herr, ht⟩

/-- Slot `i1` is fetched again for a branch error of its own, when nothing is wrong in slot `i0`. -/
theorem of_rfpcI1E4 (h : s.rfpcI1E4 i = true) : i.i1ValidE4 = true ∧
    (i.i0BrErrorE4 || i.i0BrStartErrorE4) = false ∧ (i.i1BrErrorE4 || i.i1BrStartErrorE4) = true ∧
    i.i0BrMpE4 = false ∧ s.i0ExceptionValidE4 i = false ∧ s.lsuI0ExcDc4 i = false ∧ s.triggerHitE4 i = false := by
  unfold rfpcI1E4 at h
  simp only [Bool.and_eq_true, Bool.not_eq_true'] at h
  obtain ⟨⟨⟨⟨⟨⟨⟨hv, -⟩, hexc⟩, hmp⟩, hlsu⟩, herr0⟩, herr1⟩, ht⟩ := h
  exact ⟨hv, herr0, herr1, hmp, hexc, hlsu, ht⟩

/-- The instruction in slot `i0` of E4 is `mret` or a `fence.i`. -/
theorem of_sync (h : s.fenceIE4 i = true ∨ s.mretE4 i = true) :
    i.i0ValidE4 = true ∧ s.i0TriggerHitE4 i = false ∧ (i.packetE4.fenceI = true ∨ i.packetE4.itype = .mret) := by
  unfold fenceIE4 mretE4 at h
  simp only [Bool.and_eq_true, Bool.not_eq_true', beq_iff_eq] at h
  rcases h with ⟨⟨hf, hv⟩, ht⟩ | ⟨⟨hm, hv⟩, ht⟩
  · exact ⟨hv, ht, Or.inl hf⟩
  · exact ⟨hv, ht, Or.inr hm⟩

/-- Why an exception is taken: the instruction in slot `i0`, a misaligned target, a fault of the load/store unit, or a
trigger. -/
inductive ExceptionCase (s : Tlu) (i : TluIn) : Prop where
  | inst (hv : i.i0ValidE4 = true) (hr : s.rfpcI0E4 i = false)
      (hp : i.packetE4.legal = false ∨ i.packetE4.icaf = true ∨ i.packetE4.itype = .ebreak ∨ i.packetE4.itype = .ecall)
  | target0 (hv : i.i0ValidE4 = true) (hr : s.rfpcI0E4 i = false) (hm : i.i0InstMisalignedE4 = true)
      (h : s.instMisalignedI0E4 i = true)
  | target1 (hv : i.i1ValidE4 = true) (hr : s.rfpcI0E4 i = false) (hmp : i.i0BrMpE4 = false)
      (h : s.instMisalignedI1E4 i = true)
  | access0 (h : s.lsuI0ExcDc4 i = true) (hraw : s.lsuI0ExcDc4Raw = true)
  | access1 (h : s.lsuI1ExcDc4 i = true) (hraw : s.lsuI1ExcDc4Raw = true) (hf : s.flushLowerWb = false)
      (hr : s.rfpcI0E4 i = false) (hmp : i.i0BrMpE4 = false)
  | trigger0 (h : s.i0TriggerHitE4 i = true)
  | trigger1 (h : s.i1TriggerHitE4 i = true) (hr : s.rfpcI0E4 i = false) (hmp : i.i0BrMpE4 = false)

/-- An exception that is taken has one of the listed causes. -/
theorem exception_case (h : s.takesException i = true) : s.ExceptionCase i := by
  unfold takesException at h
  rw [Bool.or_eq_true, Bool.or_eq_true, Bool.and_eq_true] at h
  rcases h with (hexc | hlsu) | ⟨ht, -⟩
  · unfold i0ExceptionValidE4 at hexc
    simp only [Bool.and_eq_true, Bool.or_eq_true, Bool.not_eq_true'] at hexc
    obtain ⟨⟨hany, hr⟩, -⟩ := hexc
    rcases hany with (((hb | hc) | hi) | ha) | hm
    · simp only [ebreakE4, Bool.and_eq_true, beq_iff_eq] at hb
      exact .inst hb.1.1.2 hr (Or.inr (Or.inr (Or.inl hb.1.1.1)))
    · simp only [ecallE4, Bool.and_eq_true, beq_iff_eq] at hc
      exact .inst hc.1.2 hr (Or.inr (Or.inr (Or.inr hc.1.1)))
    · simp only [illegalE4, Bool.and_eq_true, Bool.not_eq_true'] at hi
      exact .inst hi.1.2 hr (Or.inl hi.1.1)
    · simp only [instAccE4, Bool.and_eq_true] at ha
      exact .inst ha.1.1.2 hr (Or.inr (Or.inl ha.1.1.1))
    · unfold instMisalignedE4 at hm
      rcases Bool.or_eq_true_iff.mp hm with h0 | h1
      · have h := h0
        simp only [instMisalignedI0E4, Bool.and_eq_true] at h
        exact .target0 h.1.1.1.1.1.1.2 hr h.1.1.1.1.1.1.1 h0
      · have h := h1
        simp only [instMisalignedI1E4, Bool.and_eq_true, Bool.not_eq_true'] at h
        exact .target1 h.1.1.1.1.1.1.1.1.1.2 hr h.1.1.1.1.1.1.2 h1
  · unfold lsuExcValidE4 at hlsu
    rcases Bool.or_eq_true_iff.mp hlsu with h0 | h1
    · have h := h0
      simp only [lsuI0ExcDc4, Bool.and_eq_true] at h
      exact .access0 h0 h.1.1
    · have h := h1
      simp only [lsuI1ExcDc4, Bool.and_eq_true] at h
      obtain ⟨⟨hraw, hvalid⟩, -⟩ := h
      have hpipe : s.lsuErrorPktDc4.instPipe = true := by
        unfold lsuI1ExcDc4Raw at hraw
        exact (Bool.and_eq_true_iff.mp hraw).2
      unfold lsuExcValidE4Raw at hvalid
      simp only [hpipe, Bool.true_and, Bool.and_eq_true, Bool.not_eq_true', Bool.or_eq_false_iff] at hvalid
      exact .access1 h1 hraw hvalid.2 hvalid.1.2.1.1 hvalid.1.2.2
  · unfold triggerHitE4 at ht
    rcases Bool.or_eq_true_iff.mp ht with h0 | h1
    · exact .trigger0 h0
    · have h := h1
      simp only [i1TriggerHitE4, Bool.and_eq_true, Bool.not_eq_true', Bool.or_eq_false_iff, Bool.not_eq_false'] at h
      obtain ⟨⟨⟨⟨⟨-, hcommit⟩, hmp⟩, -⟩, -⟩, -⟩ := h
      simp only [tluI0CommitCmt, Bool.and_eq_true, Bool.not_eq_true'] at hcommit
      exact .trigger1 h1 hcommit.1.1.1.1.1.1.2 hmp

/-! ## What each source excludes -/

/-- A plain instruction neither synchronises nor traps by itself. -/
theorem no_sync (hp : i.packetE4.Plain) : s.fenceIE4 i = false ∧ s.mretE4 i = false := by
  simp [fenceIE4, mretE4, hp.fenceI, hp.itype]

@[inherit_doc no_sync]
theorem no_inst (hp : i.packetE4.Plain) : ¬(i.packetE4.legal = false ∨ i.packetE4.icaf = true ∨
    i.packetE4.itype = .ebreak ∨ i.packetE4.itype = .ecall) := by
  simp [hp.legal, hp.icaf, hp.itype]

section Excludes

variable (h : OneCause s i)

include h

/-- A refetch of a frozen access comes with nothing in E4. -/
theorem OneCause.frozen (hfz : s.freezeRfpcE4 i = true) : i.i0ValidE4 = false ∧ i.i1ValidE4 = false := by
  unfold freezeRfpcE4 at hfz
  simp only [Bool.and_eq_true] at hfz
  exact h.blocked hfz.1.1

/-- Next to a misprediction in slot `i0` no instruction is fetched again or synchronises. -/
theorem OneCause.i0Mp (hmp : s.i0MpE4 i = true) : s.rfpcI0E4 i = false ∧ s.rfpcI1E4 i = false ∧
    s.fenceIE4 i = false ∧ s.mretE4 i = false := by
  obtain ⟨hflush, -⟩ := of_i0MpE4 hmp
  obtain ⟨hv, hplain, herr, -, hnext⟩ := h.branch0 hflush
  refine ⟨?_, ?_, no_sync hplain⟩
  · rw [← Bool.not_eq_true]
    intro hr
    rcases of_rfpcI0E4 hr with hfz | ⟨-, herr', -⟩
    · exact Bool.false_ne_true ((h.frozen hfz).1.symm.trans hv)
    · exact Bool.false_ne_true (herr.symm.trans herr')
  · rw [← Bool.not_eq_true]
    intro hr
    obtain ⟨hv1, -, -, hno, -⟩ := of_rfpcI1E4 hr
    rcases hnext with hbr | hv1'
    · exact Bool.false_ne_true (hno.symm.trans hbr)
    · exact Bool.false_ne_true (hv1'.symm.trans hv1)

/-- The only exception next to it is that of a misaligned target. -/
theorem OneCause.i0Mp_exception (hw : Wired s i x) (hmp : s.i0MpE4 i = true) (hm : s.instMisalignedE4 i = false) :
    s.takesException i = false := by
  obtain ⟨hflush, ht⟩ := of_i0MpE4 hmp
  obtain ⟨hv, hplain, -, hlsu, hnext⟩ := h.branch0 hflush
  -- a jump that is not mispredicted is alone in its pair
  have halone : i.i0BrMpE4 = false → i.i1ValidE4 = false := by
    intro hno
    rcases hnext with hbr | hv1
    · exact absurd (hno.symm.trans hbr) Bool.false_ne_true
    · exact hv1
  unfold instMisalignedE4 at hm
  rw [Bool.or_eq_false_iff] at hm
  rw [← Bool.not_eq_true]
  intro hexc
  cases exception_case hexc with
  | inst _ _ hp => exact no_inst hplain hp
  | target0 _ _ _ h0 => exact Bool.false_ne_true (hm.1.symm.trans h0)
  | target1 _ _ _ h1 => exact Bool.false_ne_true (hm.2.symm.trans h1)
  | access0 _ hraw => exact Bool.false_ne_true (hlsu.symm.trans hraw)
  | access1 _ hraw hf _ hno =>
    rcases h.access1 hraw hf with hv1 | hv0
    · exact Bool.false_ne_true ((halone hno).symm.trans hv1)
    · exact Bool.false_ne_true (hv0.symm.trans hv)
  | trigger0 ht0 => exact Bool.false_ne_true (ht.symm.trans ht0)
  | trigger1 ht1 _ hno => exact Bool.false_ne_true ((halone hno).symm.trans (hw.valid1 ht1))

/-- Next to a misprediction in slot `i1` no other instruction is fetched again or synchronises. -/
theorem OneCause.i1Mp (hmp : s.i1MpE4 i = true) :
    s.rfpcI1E4 i = false ∧ s.fenceIE4 i = false ∧ s.mretE4 i = false := by
  obtain ⟨hflush, -⟩ := of_i1MpE4 hmp
  obtain ⟨hv, herr, -⟩ := h.branch1 hflush
  refine ⟨?_, no_sync (h.pair hv)⟩
  rw [← Bool.not_eq_true]
  intro hr
  exact Bool.false_ne_true (herr.symm.trans (of_rfpcI1E4 hr).2.2.1)

/-- The only other exception next to it is a fault in slot `i0`. -/
theorem OneCause.i1Mp_exception (hmp : s.i1MpE4 i = true) (hm : s.instMisalignedE4 i = false)
    (hlsu0 : s.lsuI0ExcDc4 i = false) : s.takesException i = false := by
  obtain ⟨hflush, ht⟩ := of_i1MpE4 hmp
  obtain ⟨hv, -, hlsu⟩ := h.branch1 hflush
  unfold instMisalignedE4 at hm
  unfold triggerHitE4 at ht
  rw [Bool.or_eq_false_iff] at hm ht
  rw [← Bool.not_eq_true]
  intro hexc
  cases exception_case hexc with
  | inst _ _ hp => exact no_inst (h.pair hv) hp
  | target0 _ _ _ h0 => exact Bool.false_ne_true (hm.1.symm.trans h0)
  | target1 _ _ _ h1 => exact Bool.false_ne_true (hm.2.symm.trans h1)
  | access0 h0 _ => exact Bool.false_ne_true (hlsu0.symm.trans h0)
  | access1 _ hraw _ _ _ => exact Bool.false_ne_true (hlsu.symm.trans hraw)
  | trigger0 ht0 => exact Bool.false_ne_true (ht.1.symm.trans ht0)
  | trigger1 ht1 _ _ => exact Bool.false_ne_true (ht.2.symm.trans ht1)

/-- If slot `i0` is fetched again, slot `i1` is not, and nothing synchronises. -/
theorem OneCause.rfpcI0 (hr : s.rfpcI0E4 i = true) :
    s.rfpcI1E4 i = false ∧ s.fenceIE4 i = false ∧ s.mretE4 i = false := by
  rcases of_rfpcI0E4 hr with hfz | ⟨hv, herr, -⟩
  · obtain ⟨hv0, hv1⟩ := h.frozen hfz
    simp [rfpcI1E4, fenceIE4, mretE4, hv0, hv1]
  · obtain ⟨hfence, hmret, -⟩ := h.error0 hv herr
    simp [rfpcI1E4, fenceIE4, mretE4, herr, hfence, hmret]

/-- The only exception then is a fault that the freeze has let through. -/
theorem OneCause.rfpcI0_exception (hw : Wired s i x) (hr : s.rfpcI0E4 i = true)
    (hfault : (s.freezeRfpcE4 i && s.lsuI0ExcDc4 i) = false) : s.takesException i = false := by
  rw [← Bool.not_eq_true]
  intro hexc
  cases exception_case hexc with
  | inst _ hno _ => exact Bool.false_ne_true (hno.symm.trans hr)
  | target0 _ hno _ _ => exact Bool.false_ne_true (hno.symm.trans hr)
  | target1 _ hno _ _ => exact Bool.false_ne_true (hno.symm.trans hr)
  | access0 h0 hraw =>
    rcases of_rfpcI0E4 hr with hfz | ⟨hv, herr, -⟩
    · rw [hfz, h0] at hfault
      exact absurd hfault.symm Bool.false_ne_true
    · exact Bool.false_ne_true ((h.error0 hv herr).2.2.symm.trans hraw)
  | access1 _ _ _ hno _ => exact Bool.false_ne_true (hno.symm.trans hr)
  | trigger0 ht0 =>
    rcases of_rfpcI0E4 hr with hfz | ⟨-, -, ht⟩
    · exact Bool.false_ne_true ((h.frozen hfz).1.symm.trans (hw.valid0 ht0))
    · exact Bool.false_ne_true (ht.symm.trans ht0)
  | trigger1 _ hno _ => exact Bool.false_ne_true (hno.symm.trans hr)

/-- If slot `i1` is fetched again, nothing synchronises and there is no exception. -/
theorem OneCause.rfpcI1 (hr : s.rfpcI1E4 i = true) :
    s.fenceIE4 i = false ∧ s.mretE4 i = false ∧ s.takesException i = false := by
  obtain ⟨hv, -, herr, -, hexc, hlsu0, ht⟩ := of_rfpcI1E4 hr
  have hlsu1 : s.lsuI1ExcDc4 i = false := by
    rw [lsuI1ExcDc4, h.error1 hv herr, Bool.false_and, Bool.false_and]
  refine ⟨(no_sync (h.pair hv)).1, (no_sync (h.pair hv)).2, ?_⟩
  rw [takesException, lsuExcValidE4, hexc, hlsu0, hlsu1, ht]
  rfl

/-- Next to an instruction that synchronises there is no exception. -/
theorem OneCause.sync_exception (hw : Wired s i x) (hs : s.fenceIE4 i = true ∨ s.mretE4 i = true) :
    s.takesException i = false := by
  obtain ⟨hv, ht, hkind⟩ := of_sync hs
  obtain ⟨hl, ha, hlsu, hb, he, -⟩ := h.sync hv hkind
  -- it is alone in its pair
  have hv1 : i.i1ValidE4 = false := by
    rw [← Bool.not_eq_true]
    intro hv1
    obtain ⟨hf, hm⟩ := no_sync (s := s) (h.pair hv1)
    rcases hs with hs | hs
    · exact Bool.false_ne_true (hf.symm.trans hs)
    · exact Bool.false_ne_true (hm.symm.trans hs)
  rw [← Bool.not_eq_true]
  intro hexc
  cases exception_case hexc with
  | inst _ _ hp =>
    rcases hp with hl' | ha' | hb' | he'
    · exact Bool.false_ne_true (hl'.symm.trans hl)
    · exact Bool.false_ne_true (ha.symm.trans ha')
    · exact hb hb'
    · exact he he'
  | target0 _ _ hm _ =>
    obtain ⟨hf, hmret⟩ := h.taken0 hv hm
    rcases hkind with hk | hk
    · exact Bool.false_ne_true (hf.symm.trans hk)
    · exact hmret hk
  | target1 hv1' _ _ _ => exact Bool.false_ne_true (hv1.symm.trans hv1')
  | access0 _ hraw => exact Bool.false_ne_true (hlsu.symm.trans hraw)
  | access1 _ hraw hf _ _ =>
    rcases h.access1 hraw hf with hv1' | hv0
    · exact Bool.false_ne_true (hv1.symm.trans hv1')
    · exact Bool.false_ne_true (hv0.symm.trans hv)
  | trigger0 ht0 => exact Bool.false_ne_true (ht.symm.trans ht0)
  | trigger1 ht1 _ _ => exact Bool.false_ne_true (hv1.symm.trans (hw.valid1 ht1))

/-- `fence.i` is not `mret`. -/
theorem OneCause.fenceI_mret (hf : s.fenceIE4 i = true) : s.mretE4 i = false := by
  obtain ⟨hv, -, hkind⟩ := of_sync (Or.inl hf)
  have hfence : i.packetE4.fenceI = true := by
    unfold fenceIE4 at hf
    simp only [Bool.and_eq_true] at hf
    exact hf.1.1
  have hno := (h.sync hv hkind).2.2.2.2.2.resolve_left fun hno => Bool.false_ne_true (hno.symm.trans hfence)
  simp [mretE4, hno]

end Excludes

/-- The core is woken with nothing in E4. -/
theorem Wired.woken (hw : Wired s i x) (h : OneCause s i) (hwake : (x.cpuRunReqD1 || x.pauseExpiredE4) = true) :
    s.i0MpE4 i = false ∧ s.i1MpE4 i = false ∧ s.fenceIE4 i = false ∧ s.rfpcI0E4 i = false ∧ s.rfpcI1E4 i = false ∧
      s.takesException i = false ∧ s.mretE4 i = false := by
  obtain ⟨hv0, hv1, hexc, hblock⟩ := hw.wake hwake
  have hflush0 : i.i0FlushLowerE4 = false := by
    rw [← Bool.not_eq_true]
    exact fun hf => Bool.false_ne_true (hv0.symm.trans (h.branch0 hf).1)
  have hflush1 : i.i1FlushLowerE4 = false := by
    rw [← Bool.not_eq_true]
    exact fun hf => Bool.false_ne_true (hv1.symm.trans (h.branch1 hf).1)
  refine ⟨by rw [i0MpE4, hflush0, Bool.false_and], by rw [i1MpE4, hflush1, Bool.false_and], ?_, ?_, ?_, ?_, ?_⟩
  · simp [fenceIE4, hv0]
  · simp [rfpcI0E4, freezeRfpcE4, hblock, hv0]
  · simp [rfpcI1E4, hv1]
  · rw [← Bool.not_eq_true]
    intro hex
    cases exception_case hex with
    | inst hv _ _ => exact Bool.false_ne_true (hv0.symm.trans hv)
    | target0 hv _ _ _ => exact Bool.false_ne_true (hv0.symm.trans hv)
    | target1 hv _ _ _ => exact Bool.false_ne_true (hv1.symm.trans hv)
    | access0 _ hraw =>
      unfold lsuI0ExcDc4Raw at hraw
      exact Bool.false_ne_true (hexc.symm.trans (Bool.and_eq_true_iff.mp hraw).1)
    | access1 _ hraw _ _ _ =>
      unfold lsuI1ExcDc4Raw at hraw
      exact Bool.false_ne_true (hexc.symm.trans (Bool.and_eq_true_iff.mp hraw).1)
    | trigger0 ht0 => exact Bool.false_ne_true (hv0.symm.trans (hw.valid0 ht0))
    | trigger1 ht1 _ _ => exact Bool.false_ne_true (hv1.symm.trans (hw.valid1 ht1))
  · simp [mretE4, hv0]

/-! ## The select lines -/

/-- Nothing wakes the core in a cycle in which E4 is a cause. -/
theorem OneCause.no_wake (h : OneCause s i) (hw : Wired s i x)
    (hcause : (s.i0MpE4 i || s.i1MpE4 i || s.fenceIE4 i || s.rfpcI0E4 i || s.rfpcI1E4 i || s.takesException i ||
      s.mretE4 i) = true) : x.cpuRunReqD1 = false ∧ selNpcWb x = false := by
  have hno : (x.cpuRunReqD1 || x.pauseExpiredE4) = false := by
    rw [← Bool.not_eq_true]
    intro hwake
    obtain ⟨h0, h1, hf, hr0, hr1, he, hm⟩ := hw.woken h hwake
    rw [h0, h1, hf, hr0, hr1, he, hm] at hcause
    exact absurd hcause Bool.false_ne_true
  rw [Bool.or_eq_false_iff] at hno
  exact ⟨hno.1, by rw [selNpcWb, hno.1, hno.2]; rfl⟩

section Clean

variable (h : OneCause s i) (hw : Wired s i x) (hc : Clean s i x)

include h hw hc

/-- A misprediction in slot `i0` is the only source of the flush. -/
theorem OneCause.i0Mp_alone (hmp : s.i0MpE4 i = true) : s.interruptValid i = false ∧ s.takeNmi i = false ∧
    s.selNpcE4 i x = false ∧ s.rfpcI0E4 i = false ∧ s.rfpcI1E4 i = false ∧ s.takesException i = false ∧
    s.mretE4 i = false ∧ selNpcWb x = false := by
  obtain ⟨hint, hnmi⟩ := no_interrupt (s := s) (i := i) (by simp [synchronousFlushE4, hmp])
  obtain ⟨hr0, hr1, hf, hm⟩ := h.i0Mp hmp
  obtain ⟨hrun, hwb⟩ := h.no_wake hw (by simp [hmp])
  have htarget : s.instMisalignedE4 i = false := by
    have htarget := hc.target
    rwa [hmp, Bool.true_or, Bool.and_true] at htarget
  exact ⟨hint, hnmi, by simp [selNpcE4, hf, hrun], hr0, hr1, h.i0Mp_exception hw hmp htarget, hm, hwb⟩

/-- A misprediction in slot `i1` is the only source of the flush, unless slot `i0` faults in the LSU. -/
theorem OneCause.i1Mp_alone (hmp : s.i1MpE4 i = true) (hlsu0 : s.lsuI0ExcDc4 i = false) :
    s.interruptValid i = false ∧ s.takeNmi i = false ∧ s.selNpcE4 i x = false ∧ s.rfpcI1E4 i = false ∧
    s.takesException i = false ∧ s.mretE4 i = false ∧ selNpcWb x = false := by
  obtain ⟨hint, hnmi⟩ := no_interrupt (s := s) (i := i) (by simp [synchronousFlushE4, hmp])
  obtain ⟨hr1, hf, hm⟩ := h.i1Mp hmp
  obtain ⟨hrun, hwb⟩ := h.no_wake hw (by simp [hmp])
  have htarget : s.instMisalignedE4 i = false := by
    have htarget := hc.target
    rwa [hmp, Bool.or_true, Bool.and_true] at htarget
  exact ⟨hint, hnmi, by simp [selNpcE4, hf, hrun], hr1, h.i1Mp_exception hmp htarget hlsu0, hm, hwb⟩

/-- A flush to the next address in E4 has no other source. -/
theorem OneCause.selNpc_alone (hsel : s.selNpcE4 i x = true) : s.interruptValid i = false ∧ s.rfpcI0E4 i = false ∧
    s.rfpcI1E4 i = false ∧ s.takesException i = false ∧ s.mretE4 i = false ∧ selNpcWb x = false := by
  unfold selNpcE4 at hsel
  rw [Bool.or_eq_true, Bool.and_eq_true, Bool.not_eq_true'] at hsel
  rcases hsel with hf | ⟨hrun, hint⟩
  · have hint := (no_interrupt (s := s) (i := i) (by simp [synchronousFlushE4, hf])).1
    have hr0 : s.rfpcI0E4 i = false := by
      rw [← Bool.not_eq_true]
      exact fun hr => Bool.false_ne_true ((h.rfpcI0 hr).2.1.symm.trans hf)
    have hr1 : s.rfpcI1E4 i = false := by
      rw [← Bool.not_eq_true]
      exact fun hr => Bool.false_ne_true ((h.rfpcI1 hr).1.symm.trans hf)
    exact ⟨hint, hr0, hr1, h.sync_exception hw (Or.inl hf), h.fenceI_mret hf, (h.no_wake hw (by simp [hf])).2⟩
  · obtain ⟨-, -, -, hr0, hr1, he, hm⟩ := hw.woken h (by rw [hrun, Bool.true_or])
    have hwb := hc.wake
    rw [hrun, Bool.true_and] at hwb
    exact ⟨hint, hr0, hr1, he, hm, hwb⟩

/-- A fetch again of slot `i0` leaves no source of lower rank. -/
theorem OneCause.rfpcI0_alone (hr : s.rfpcI0E4 i = true) : s.interruptValid i = false ∧ s.rfpcI1E4 i = false ∧
    s.takesException i = false ∧ s.mretE4 i = false ∧ selNpcWb x = false := by
  obtain ⟨hr1, -, hm⟩ := h.rfpcI0 hr
  exact ⟨(no_interrupt (s := s) (i := i) (by simp [synchronousFlushE4, hr])).1, hr1,
    h.rfpcI0_exception hw hr hc.frozen, hm, (h.no_wake hw (by simp [hr])).2⟩

omit hc in
/-- A fetch again of slot `i1` leaves no source of lower rank. -/
theorem OneCause.rfpcI1_alone (hr : s.rfpcI1E4 i = true) : s.interruptValid i = false ∧
    s.takesException i = false ∧ s.mretE4 i = false ∧ selNpcWb x = false := by
  obtain ⟨-, hm, he⟩ := h.rfpcI1 hr
  exact ⟨(no_interrupt (s := s) (i := i) (by simp [synchronousFlushE4, hr])).1, he, hm,
    (h.no_wake hw (by simp [hr])).2⟩

omit h hc in
/-- An interrupt comes neither with an `mret` nor with the next address of write-back. -/
theorem Wired.interrupt_alone (hint : s.interruptValid i = true) : s.mretE4 i = false ∧ selNpcWb x = false := by
  obtain ⟨hsync, hm⟩ := of_interruptValid hint
  unfold synchronousFlushE4 at hsync
  simp only [Bool.or_eq_false_iff, hw.syncFlush] at hsync
  exact ⟨hm, hsync.1.2.1.2⟩

omit hc in
/-- An exception comes neither with an `mret` nor with the next address of write-back. -/
theorem OneCause.exception_alone (he : s.takesException i = true) : s.mretE4 i = false ∧ selNpcWb x = false := by
  refine ⟨?_, (h.no_wake hw (by simp [he])).2⟩
  rw [← Bool.not_eq_true]
  exact fun hm => Bool.false_ne_true ((h.sync_exception hw (Or.inr hm)).symm.trans he)

/-- What is selected in a clean cycle is selected alone. -/
theorem OneCause.atMostOne : AtMostOne (s.flushSources i x) := by
  have hresume := hw.resume
  unfold AtMostOne flushSources
  refine List.pairwise_cons.mpr ⟨fun y hy hsel => ?_, List.pairwise_cons.mpr ⟨fun y hy hsel => ?_,
    List.pairwise_cons.mpr ⟨fun y hy hsel => ?_, List.pairwise_cons.mpr ⟨fun y hy hsel => ?_,
    List.pairwise_cons.mpr ⟨fun y hy hsel => ?_, List.pairwise_cons.mpr ⟨fun y hy hsel => ?_,
    List.pairwise_cons.mpr ⟨fun y hy hsel => ?_, List.pairwise_cons.mpr ⟨fun y hy hsel => ?_,
    List.pairwise_cons.mpr ⟨fun y hy hsel => ?_, List.pairwise_cons.mpr ⟨fun y hy hsel => ?_,
    List.pairwise_singleton _ _⟩⟩⟩⟩⟩⟩⟩⟩⟩⟩ <;>
    simp only [Bool.and_eq_true, Bool.not_eq_true'] at hsel
  · obtain ⟨hint, hnmi, hnpc, hr0, hr1, he, hm, hwb⟩ := h.i0Mp_alone hw hc hsel.2
    revert y
    simp [hsel.2, hint, hnpc, hr0, hr1, he, hm, hwb, hresume]
  · obtain ⟨hint, hnmi, hnpc, hr1, he, hm, hwb⟩ := h.i1Mp_alone hw hc hsel.1.1.2 hsel.2
    revert y
    simp [hsel.1.2, hint, hnpc, hr1, he, hm, hwb, hresume]
  · obtain ⟨hint, hr0, hr1, he, hm, hwb⟩ := h.selNpc_alone hw hc hsel.2
    revert y
    simp [hint, hr0, hr1, he, hm, hwb, hresume]
  · obtain ⟨hint, hr1, he, hm, hwb⟩ := h.rfpcI0_alone hw hc hsel.2
    revert y
    simp [hint, hr1, he, hm, hwb, hresume]
  · obtain ⟨hint, he, hm, hwb⟩ := h.rfpcI1_alone hw hsel.2
    revert y
    simp [hint, he, hm, hwb, hresume]
  · obtain ⟨hm, hwb⟩ := hw.interrupt_alone hsel
    revert y
    simp [hsel, hm, hwb, hresume]
  · obtain ⟨hm, hwb⟩ := h.exception_alone hw hsel.1
    revert y
    simp [hm, hwb, hresume]
  · have hwb := (h.no_wake hw (by simp [hsel.1.2])).2
    revert y
    simp [hsel.2, hwb, hresume]
  · exact absurd (hresume.symm.trans hsel.2) Bool.false_ne_true
  · have hm : s.mretE4 i = false := by
      rw [← Bool.not_eq_true]
      exact fun hm => Bool.false_ne_true ((h.no_wake hw (by simp [hm])).2.symm.trans hsel.2)
    revert y
    simp [hm]

end Clean

/-- An exception whose select line is up alone goes to the base of the trap vector. -/
theorem flushPath_of_exception (hone : AtMostOne (s.flushSources i x)) (he : s.takesException i = true)
    (hint : s.interruptValid i = false) (hreset : x.takeReset = false) : s.flushPath i x = mtvecBase x := by
  rw [flushPath, hreset, if_neg Bool.false_ne_true]
  refine andOr_of_mem hone ?_
  have hsel : (s.takesException i && !s.interruptValid i) = true := by rw [he, hint]; rfl
  simp [flushSources, hsel]

/-- A misprediction and a misaligned target in one pair select two sources. -/
theorem target_of_atMostOne (hw : Wired s i x) (hone : AtMostOne (s.flushSources i x)) :
    (s.instMisalignedE4 i && (s.i0MpE4 i || s.i1MpE4 i)) = false := by
  rw [← Bool.not_eq_true]
  intro hboth
  rw [Bool.and_eq_true, Bool.or_eq_true] at hboth
  obtain ⟨hm, hmp⟩ := hboth
  have hno : s.rfpcI0E4 i = false ∧ s.lsuI0ExcDc4 i = false := by
    have hany := hm
    unfold instMisalignedE4 at hany
    rw [Bool.or_eq_true] at hany
    rcases hany with h0 | h1
    · simp only [instMisalignedI0E4, Bool.and_eq_true, Bool.not_eq_true'] at h0
      exact ⟨h0.1.1.1.1.2, by rw [lsuI0ExcDc4, h0.1.1.1.2]; rfl⟩
    · simp only [instMisalignedI1E4, Bool.and_eq_true, Bool.not_eq_true'] at h1
      exact ⟨h1.1.1.1.1.1.1.1.2, by rw [lsuI0ExcDc4, h1.1.1.1.1.1.2]; rfl⟩
  have he : s.takesException i = true := by
    simp [takesException, i0ExceptionValidE4, hm, hno.1, hw.halted]
  obtain ⟨hint, hnmi⟩ := no_interrupt (s := s) (i := i) (by rcases hmp with h | h <;> simp [synchronousFlushE4, h])
  have hvector : (s.takesException i && !s.interruptValid i) = true := by rw [he, hint]; rfl
  cases h0 : s.i0MpE4 i with
  | true =>
    have hsel : (!s.takeNmi i && s.i0MpE4 i) = true := by rw [hnmi, h0]; rfl
    have hunsel : (s.takesException i && !s.interruptValid i) = false :=
      hone.getElem (j := 0) (k := 6) (by simp [flushSources]) (by decide) hsel
    exact Bool.false_ne_true (hunsel.symm.trans hvector)
  | false =>
    have h1 := hmp.resolve_left (by rw [h0]; decide)
    have hsel : (!s.takeNmi i && !s.i0MpE4 i && s.i1MpE4 i && !s.rfpcI0E4 i && !s.lsuI0ExcDc4 i) = true := by
      rw [hnmi, h0, h1, hno.1, hno.2]
      rfl
    have hunsel : (s.takesException i && !s.interruptValid i) = false :=
      hone.getElem (j := 1) (k := 6) (by simp [flushSources]) (by decide) hsel
    exact Bool.false_ne_true (hunsel.symm.trans hvector)

/-- In a cycle whose E4 holds one pair the address of the flush is well defined exactly when the cycle is clean. -/
theorem pathExact_iff (h : OneCause s i) (hw : Wired s i x) : s.PathExact i x ↔ Clean s i x := by
  constructor
  · rintro ⟨hone, -⟩
    refine ⟨target_of_atMostOne hw hone, ?_, ?_⟩
    · rw [← Bool.not_eq_true]
      intro hboth
      rw [Bool.and_eq_true] at hboth
      have hr : s.rfpcI0E4 i = true := by rw [rfpcI0E4, hboth.1, Bool.true_or]
      have he : s.takesException i = true := by simp [takesException, lsuExcValidE4, hboth.2]
      obtain ⟨hint, hnmi⟩ := no_interrupt (s := s) (i := i) (by simp [synchronousFlushE4, hr])
      have hsel : (!s.takeNmi i && s.rfpcI0E4 i) = true := by rw [hnmi, hr]; rfl
      have hunsel : (s.takesException i && !s.interruptValid i) = false :=
        hone.getElem (j := 3) (k := 6) (by simp [flushSources]) (by decide) hsel
      rw [he, hint] at hunsel
      exact Bool.false_ne_true hunsel.symm
    · rw [← Bool.not_eq_true]
      intro hboth
      rw [Bool.and_eq_true] at hboth
      have hother : i.syncFlushOther = true := by rw [hw.syncFlush, hboth.2, Bool.or_true, Bool.true_or]
      obtain ⟨hint, hnmi⟩ := no_interrupt (s := s) (i := i) (by simp [synchronousFlushE4, hother])
      have hsel : (!s.takeNmi i && s.selNpcE4 i x) = true := by simp [hnmi, selNpcE4, hboth.1, hint]
      have hunsel : (!s.takeNmi i && selNpcWb x) = false :=
        hone.getElem (j := 2) (k := 9) (by simp [flushSources]) (by decide) hsel
      rw [hnmi, hboth.2] at hunsel
      exact Bool.false_ne_true hunsel.symm
  · intro hc
    have hone := h.atMostOne hw hc
    exact ⟨hone, fun he hint hreset => flushPath_of_exception hone he hint hreset⟩

end Tlu

end SocRV
