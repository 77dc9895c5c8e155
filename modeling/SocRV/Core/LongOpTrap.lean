import SocRV.Core.Align
import SocRV.Core.PairTrace

/-!
# Nothing traps around a long operation

A long operation at work is alone between E1 and E4, so the load/store unit holds nothing, freezes nothing and reports
nothing in its time, and what the trap unit hears of in the cycle of its completion comes from the registers of E4
alone.
-/

namespace SocRV

namespace Dec

open DestPkt

variable {s : Dec} {i : DecIn}

/-- A division is not a load or store. -/
theorem dd_lsu0_of_div (h : (s.dd i).i0div = true) : (s.dd i).lsu0 = false := by
  have hd : (i0dp i).div = true ∧ s.i0LegalDecodeD i = true := Bool.and_eq_true_iff.mp h
  rw [dd_lsu0, (i0dp_wf.div (i0Legal_dp hd.2) hd.1).1, Bool.and_false]

/-- A floating-point operation is not a load or store. -/
theorem dd_lsu0_of_fpu (h : (s.dd i).i0fpu = true) : (s.dd i).lsu0 = false := by
  have hd : (i0dp i).fpu = true ∧ s.i0LegalDecodeD i = true := Bool.and_eq_true_iff.mp h
  rw [dd_lsu0, (i0dp_wf.fpu hd.1).1, Bool.and_false]

end Dec

namespace Cpu

open Dec DestPkt

variable {s : Cpu} {i : CpuIn}

/-- A division or a floating-point operation is at work. -/
def AtWork (s : Cpu) : Prop := s.div.runState = true ∨ s.fpu.busy = true

/-- A long operation completes. -/
def Completes (s : Cpu) (i : CpuIn) : Prop := s.divFinish i = true ∨ s.fpuRespValid i = true

/-- A completion is that of an operation at work, in a cycle without a flush. -/
theorem of_completes (hs : Sound s) (ha : s.fpu.Answers i.fpu) (h : s.Completes i) :
    s.AtWork ∧ s.flushLowerWb = false := by
  rcases h with hd | hr
  · obtain ⟨hrun, hfl, -⟩ := hs.div.of_finish hd
    exact ⟨Or.inl hrun, hfl⟩
  · have hfl : (s.fpuCtl i).flush = false := by
      simp only [fpuRespValid, Fpu.respValid, Bool.and_eq_true, Bool.not_eq_true'] at hr
      exact hr.2
    exact ⟨Or.inr (busy_of_respValid ha hr), (Bool.or_eq_false_iff.mp hfl).2⟩

/-- A packet without a load or store. -/
def NoLsu (d : DestPkt) : Prop := d.lsu0 = false ∧ d.lsu1 = false

/-- A dead packet has no load or store. -/
theorem noLsu_of_not_live {d : DestPkt} (h : d.live = false) : NoLsu d := by
  obtain ⟨h0, h1⟩ := valid_of_not_live h
  exact ⟨by rw [lsu0, h0, Bool.false_and], by rw [lsu1, h1, Bool.false_and]⟩

/-- The packet of a long operation has no load or store in slot `i0`. -/
def LongNoLsu (d : DestPkt) : Prop := d.i0div = true ∨ d.i0fpu = true → d.lsu0 = false

/-- A killed packet of a long operation has no load or store either. -/
theorem LongNoLsu.kill (d : DestPkt) (k0 k1 : Bool) (_ : (d.kill k0 k1).live = true) (h : LongNoLsu d) :
    LongNoLsu (d.kill k0 k1) := fun hk => by
  rw [kill_lsu0, h hk, Bool.false_and]

/-- While a long operation is at work no fault of the load/store unit is in E4 and it has not frozen the pipeline. -/
structure Quiet (s : Cpu) : Prop where
  kinds : s.dec.Only LongNoLsu
  noError : s.AtWork → s.tlu.lsuErrorPktDc4.excValid = false
  noBlock : s.AtWork → s.tlu.lsuBlockInterruptsE4 = false
  noFreeze : s.AtWork → s.tlu.lsuFreezeE4 = false

theorem quiet_reset (m : DccmMem) : Quiet { mem := m } :=
  ⟨⟨nofun, nofun, nofun, nofun⟩, fun _ => rfl, fun _ => rfl, fun _ => rfl⟩

/-- A long operation at work is alone between E1 and E4. -/
theorem AtWork.only (h : s.AtWork) (ha : Alone s) :
    s.dec.Only (fun d => (d.i0div = true ∨ d.i0fpu = true) ∧ d.i1valid = false) := by
  rcases h with hd | hf
  · exact (ha.div (Or.inl hd)).mono fun d _ h => ⟨Or.inl h.2.1, h.2.2⟩
  · exact (ha.fpu (Or.inl hf)).mono fun d _ h => ⟨Or.inr h.2.1, h.2.2⟩

/-- While a long operation is at work no packet is a load or store. -/
theorem AtWork.noLsu (h : s.AtWork) (ha : Alone s) (hk : s.dec.Only LongNoLsu) : s.dec.Only NoLsu := by
  have honly := h.only ha
  have hno : ∀ {d : DestPkt}, LongNoLsu d → ((d.i0div = true ∨ d.i0fpu = true) ∧ d.i1valid = false) → NoLsu d :=
    fun hl hd => ⟨hl hd.1, by rw [lsu1, hd.2, Bool.false_and]⟩
  exact ⟨fun hl => hno (hk.e1 hl) (honly.e1 hl), fun hl => hno (hk.e2 hl) (honly.e2 hl),
    fun hl => hno (hk.e3 hl) (honly.e3 hl), fun hl => hno (hk.e4 hl) (honly.e4 hl)⟩

/-- A frozen pipeline has a load in E2. -/
theorem Aligned.lsu_of_freeze (h : Aligned s) (hf : s.freeze i = true) : ¬NoLsu s.dec.e2d := by
  have hv : s.lsu.lsc.pktDc2.valid = true := by
    have hfz := hf
    simp only [freeze, LsuBus.freezeDc3, Bool.and_eq_true, Bool.or_eq_true] at hfz
    rcases hfz.1 with hreq | hp
    · exact LsuBus.valid_of_loadRequestDc2 hreq
    · have hext := (h.one.load hp).1
      rw [Lsc.externalDc2, Bool.and_eq_true] at hext
      exact hext.1
  have hag := (h.dc2 (h.not_flushFinalE3 hf)).valid
  rintro ⟨h0, h1⟩
  rw [hv, h0, h1] at hag
  cases hag

/-- A long operation comes to work by its decode, with nothing in E1 to E3 and no freeze. -/
theorem of_next_atWork (h : (s.next i).AtWork) :
    s.AtWork ∨ (s.freeze i = false ∧ s.dec.e3d.live = false) := by
  have hfree : s.dec.i0DecodeD (s.decIn i) = true → s.freeze i = false := fun hd => (of_i0Decode hd).2.2.2
  rcases h with hd | hf
  · cases hrun : s.div.runState with
    | true => exact Or.inl (Or.inl hrun)
    | false =>
      have hdec : s.dec.i0DivDecodeD (s.decIn i) = true := by
        by_contra hno
        rw [Bool.not_eq_true] at hno
        have hvalid : (s.divIn i).valid = false := divDecodeD_eq.trans hno
        simp [DivCtl.next, DivCtl.runIn, hvalid, hrun] at hd
      obtain ⟨hleg, hdiv⟩ := Bool.and_eq_true_iff.mp hdec
      have hidle := idle_of_div (legalDecode_decode hleg) (i0Legal_dp hleg) hdiv
      exact Or.inr ⟨hfree (legalDecode_decode hleg), (not_live_of_priorInflightE1e3 hidle).2.2⟩
  · rcases of_next_busy hf with hb | hdec
    · exact Or.inl (Or.inr hb)
    · have hleg := (Bool.and_eq_true_iff.mp hdec).1
      have hidle := (idle_of_fpuDecode hdec).1
      exact Or.inr ⟨hfree (legalDecode_decode hleg), (not_live_of_priorInflight hidle).2.2.1⟩

section Step

variable (h : Quiet s) (hs : Aligned s) (ha : Alone s)

include h hs ha

/-- In the cycle before, E3 holds no load or store, and the pipeline is not frozen. -/
theorem Quiet.before (hw : (s.next i).AtWork) : s.freeze i = false ∧ NoLsu s.dec.e3d := by
  rcases of_next_atWork hw with hwork | ⟨hf, hl⟩
  · have hno := hwork.noLsu ha h.kinds
    refine ⟨?_, ?_⟩
    · by_contra hf
      rw [Bool.not_eq_false] at hf
      refine hs.lsu_of_freeze hf ?_
      cases hl : s.dec.e2d.live with
      | true => exact hno.e2 hl
      | false => exact noLsu_of_not_live hl
    · cases hl : s.dec.e3d.live with
      | true => exact hno.e3 hl
      | false => exact noLsu_of_not_live hl
  · exact ⟨hf, noLsu_of_not_live hl⟩

/-- A cycle keeps the load/store unit quiet during a long operation. -/
theorem Quiet.next : Quiet (s.next i) := by
  refine ⟨h.kinds.next hs.gated LongNoLsu.kill fun _ hk => ?_, fun hw => ?_, fun hw => ?_,
    fun hw => (h.before hs ha hw).1⟩
  · exact hk.elim dd_lsu0_of_div dd_lsu0_of_fpu
  · obtain ⟨h0, h1⟩ := (h.before hs ha hw).2
    have hv : s.lsu.lsc.pktDc3.valid = false := by rw [hs.dc3.valid, h0, h1]; rfl
    have hexc : (s.tluIn i).lsuErrorPktDc3.excValid = false := by
      have heq : (s.tluIn i).lsuErrorPktDc3 = s.lsuErrorPktDc3 i := rfl
      rw [heq, lsuErrorPktDc3, hv, Bool.and_false, Bool.false_and]
    have hnext : (s.next i).tlu.lsuErrorPktDc4 =
        rvdffs ((s.tluIn i).lsuErrorPktDc3.excValid || s.tlu.lsuErrorPktDc4.excValid || (s.tluIn i).clkOverride)
          (s.tluIn i).lsuErrorPktDc3 s.tlu.lsuErrorPktDc4 := rfl
    rw [hnext, hexc]
    cases he : s.tlu.lsuErrorPktDc4.excValid with
    | true => exact hexc
    | false => cases (s.tluIn i).clkOverride <;> assumption
  · have hf := (h.before hs ha hw).1
    have hnext : (s.next i).tlu.lsuBlockInterruptsE4 =
        ((s.freeze i && s.lsu.lsc.isSideeffectsDc3) && !s.flushLowerWb) := rfl
    rw [hnext, hf]
    rfl

end Step

/-- In every run the load/store unit is quiet during a long operation. -/
theorem quiet_run {m : DccmMem} {w : Nat → CpuIn} (ha : (machine m).Respects (fun s i => s.fpu.Answers i.fpu) w)
    (n : Nat) : Quiet ((machine m).run w n) := by
  induction n with
  | zero => exact quiet_reset m
  | succ n ih => exact ih.next (aligned_run m w n) (alone_run ha n)

/-! ## What the registers of E4 are left with -/

/-- The registers of a stage hold a jump, or a branch that is taken, to a path with bit 1 set. -/
def TakenTo (ap : AluPkt) (pp : PredictPkt) (path : BitVec 31) : Prop :=
  (ap.jal || pp.pcall || pp.pja || pp.pret || ((ap.beq || ap.bne || ap.blt || ap.bge) && pp.ataken)) = true ∧
    path.getLsbD 0 = true

/-- What the ALU of E1 reports it also hands on. -/
theorem takenTo_of_targetMisaligned {a : Alu} {ap : AluPkt} {j : AluIn} (h : a.targetMisaligned ap j = true) :
    a.validFf = true ∧ TakenTo ap (a.predictPFf ap j) (a.flushPath ap) := by
  simp only [Alu.targetMisaligned, Bool.and_eq_true] at h
  obtain ⟨⟨⟨⟨hv, htaken⟩, hpath⟩, -⟩, -⟩ := h
  have hataken : (a.predictPFf ap j).ataken = true := by simp [Alu.predictPFf, hv, htaken]
  refine ⟨hv, ?_, hpath⟩
  simp only [Alu.actualTaken, Alu.anyJal, Bool.or_eq_true, Bool.and_eq_true] at htaken
  rw [hataken]
  simp only [Alu.predictPFf, Bool.or_eq_true, Bool.and_eq_true, and_true]
  tauto

/-- A target that E1 has found misaligned goes down the pipeline with the packets it belongs to, and its stage is
enabled. -/
structure Reported (s : Cpu) : Prop where
  e1 : s.exu.i0.aluE1.validFf = true → s.dec.i0PipeEn4 = true
  e2 : s.exu.i0.targetMisalignedE2 = true →
    s.dec.i0PipeEn3 = true ∧ TakenTo s.exu.i0.apE2 s.exu.i0.ppE2 s.exu.i0.flushPathUpperE2
  e3 : s.exu.i0.targetMisalignedE3 = true →
    s.dec.i0PipeEn2 = true ∧ TakenTo s.exu.i0.apE3 s.exu.i0.ppE3 s.exu.i0.flushPathUpperE3
  e4 : s.exu.i0.targetMisalignedUpperE4 = true → s.dec.i0PipeEn1 = true ∧
    (s.tlu.lsuFreezeE4 = false → TakenTo s.exu.i0.apE4 s.exu.i0.aluE4.ppFf s.exu.i0.flushPathUpperE4)
  late : s.exu.i0.aluE4.validFf = true → s.exu.i0.secDecodeE4 = true

theorem reported_reset (m : DccmMem) : Reported { mem := m } := ⟨nofun, nofun, nofun, nofun, nofun⟩

/-- A cycle takes a misaligned target on with its packets. -/
theorem Reported.next (h : Reported s) : Reported (s.next i) := by
  have hslot : (s.next i).exu.i0 = s.exu.i0.next (s.exuI0In i) := rfl
  have hen2 : (s.exuI0In i).e2CtlEn = s.dec.i0E2CtlEn (s.decIn i) := rfl
  have hen3 : (s.exuI0In i).e3CtlEn = s.dec.i0E3CtlEn (s.decIn i) := rfl
  have hen4 : (s.exuI0In i).e4CtlEn = s.dec.i0E4CtlEn (s.decIn i) := rfl
  refine ⟨fun hv => ?_, fun hv => ?_, fun hv => ?_, fun hv => ?_, fun hv => (Bool.and_eq_true_iff.mp hv).1⟩
  · have hp : (s.next i).dec.i0PipeEn4 =
        rvdffs (!s.freeze i) (s.dec.i0DecodeD (s.decIn i)) s.dec.i0PipeEn4 := rfl
    have hvalid : (s.next i).exu.i0.aluE1.validFf = rvdffs (!s.freeze i)
        (s.dec.i0AluDecodeD (s.decIn i) && !s.exu.flushFinal s.flushLowerWb (s.freeze i)) s.exu.i0.aluE1.validFf := rfl
    rw [hvalid] at hv
    rw [hp]
    cases hf : s.freeze i with
    | true =>
      rw [hf] at hv
      exact h.e1 hv
    | false =>
      rw [hf] at hv
      simp only [Bool.not_false, rvdffs_true, i0AluDecodeD, Bool.and_eq_true] at hv
      exact legalDecode_decode hv.1.1.1
  · have hp : (s.next i).dec.i0PipeEn3 = rvdffs (!s.freeze i) s.dec.i0PipeEn4 s.dec.i0PipeEn3 := rfl
    rw [hslot] at hv ⊢
    rw [hp]
    simp only [ExuSlot.next, hen2] at hv ⊢
    cases hen : s.dec.i0E2CtlEn (s.decIn i) with
    | true =>
      have hf : s.freeze i = false := by
        simp only [i0E2CtlEn, Bool.and_eq_true, Bool.not_eq_true'] at hen
        exact hen.2
      rw [hen] at hv
      obtain ⟨hvalid, htaken⟩ := takenTo_of_targetMisaligned hv
      rw [hf]
      exact ⟨h.e1 hvalid, htaken⟩
    | false =>
      rw [hen] at hv
      obtain ⟨hpipe, htaken⟩ := h.e2 hv
      have hf : s.freeze i = true := by
        simp only [i0E2CtlEn, hpipe, Bool.or_true, Bool.true_or, Bool.true_and, Bool.not_eq_false'] at hen
        exact hen
      rw [hf]
      exact ⟨hpipe, htaken⟩
  · have hp : (s.next i).dec.i0PipeEn2 = rvdffs (!s.freeze i) s.dec.i0PipeEn3 s.dec.i0PipeEn2 := rfl
    rw [hslot] at hv ⊢
    rw [hp]
    simp only [ExuSlot.next, hen3] at hv ⊢
    cases hen : s.dec.i0E3CtlEn (s.decIn i) with
    | true =>
      have hf : s.freeze i = false := by
        simp only [i0E3CtlEn, Bool.and_eq_true, Bool.not_eq_true'] at hen
        exact hen.2
      rw [hen] at hv
      obtain ⟨hpipe, htaken⟩ := h.e2 hv
      rw [hf]
      exact ⟨hpipe, htaken⟩
    | false =>
      rw [hen] at hv
      obtain ⟨hpipe, htaken⟩ := h.e3 hv
      have hf : s.freeze i = true := by
        simp only [i0E3CtlEn, hpipe, Bool.or_true, Bool.true_or, Bool.true_and, Bool.not_eq_false'] at hen
        exact hen
      rw [hf]
      exact ⟨hpipe, htaken⟩
  · have hp : (s.next i).dec.i0PipeEn1 = s.dec.i0PipeEn2 := rfl
    have hfz : (s.next i).tlu.lsuFreezeE4 = s.freeze i := rfl
    have hpp : (s.next i).exu.i0.aluE4.ppFf =
        rvdffs (s.dec.i0E4CtlEn (s.decIn i)) (if s.freeze i then {} else s.exu.i0.ppE3) s.exu.i0.aluE4.ppFf := rfl
    rw [hpp, hfz, hp]
    rw [hslot] at hv ⊢
    simp only [ExuSlot.next, hen4] at hv ⊢
    cases hen : s.dec.i0E4CtlEn (s.decIn i) with
    | true =>
      rw [hen] at hv
      obtain ⟨hpipe, htaken⟩ := h.e3 hv
      refine ⟨hpipe, fun hf => ?_⟩
      rw [hf]
      exact htaken
    | false =>
      rw [hen] at hv
      have hpipe := (h.e4 hv).1
      simp [i0E4CtlEn, hpipe] at hen

/-- In every run a misaligned target goes with its packets. -/
theorem reported_run (m : DccmMem) (w : Nat → CpuIn) (n : Nat) : Reported ((machine m).run w n) := by
  induction n with
  | zero => exact reported_reset m
  | succ n ih => exact ih.next

/-! ## The cycle of a completion -/

/-- `exu_i0_inst_misaligned_e4` is then what the registers of E4 hold. -/
theorem instMisalignedE4_atWork (hr : Reported s) (hq : Quiet s) (hw : s.AtWork)
    (hv : s.dec.tluI0ValidE4 (s.decIn i) = true) :
    s.exu.i0.instMisalignedE4 (s.exuI0In i) =
      (s.exu.i0.takenControlE4 (s.exuI0In i) && s.exu.i0.flushPathE4Eff.getLsbD 0) := by
  have hvalid : (s.exuI0In i).validE4 = true := hv
  rw [ExuSlot.instMisalignedE4, ExuSlot.targetMisalignedE4Recheck, hvalid, Bool.true_and]
  rw [Bool.or_eq_right_iff_imp]
  intro hfirst
  rw [Bool.and_eq_true]
  cases hsec : s.exu.i0.secDecodeE4 with
  | true =>
    rw [hsec, if_pos rfl] at hfirst
    have htaken := (takenTo_of_targetMisaligned hfirst).2
    rw [ExuSlot.flushPathE4Eff, hsec, if_pos rfl]
    exact htaken
  | false =>
    rw [hsec, if_neg (by decide)] at hfirst
    have htaken := (hr.e4 hfirst).2 (hq.noFreeze hw)
    rw [ExuSlot.flushPathE4Eff, hsec, if_neg (by decide)]
    refine ⟨?_, htaken.2⟩
    have hlate : s.exu.i0.aluE4.validFf = false := by
      by_contra hon
      rw [Bool.not_eq_false] at hon
      rw [hr.late hon] at hsec
      cases hsec
    have hpp : (s.exu.i0.predictPE4 (s.exuI0In i)).ataken = s.exu.i0.aluE4.ppFf.ataken := by
      simp [ExuSlot.predictPE4, Alu.predictPFf, hlate]
    rw [ExuSlot.takenControlE4]
    simp only [hpp]
    exact htaken.1

/-- A long operation commits cleanly: none of the signals that trap it, report its target or kill its write is up. -/
def CommitsCleanly (s : Cpu) (i : CpuIn) : Prop :=
  s.tlu.tluI0CommitCmt (s.tluIn i) = true ∧ s.tlu.instMisalignedI0E4 (s.tluIn i) = false ∧
    s.tlu.i0ExceptionValidE4 (s.tluIn i) = false ∧ s.tlu.tluI0KillWritebE4 (s.tluIn i) = false

/-- The registers of E4 hold a jump, or a branch that is taken, with bit 1 of its path set, or a branch whose prediction
was inconsistent. -/
def LeftoverTraps (s : Cpu) (i : CpuIn) : Prop :=
  (s.exu.i0.takenControlE4 (s.exuI0In i) = true ∧ s.exu.i0.flushPathE4Eff.getLsbD 0 = true) ∨
    (s.exu.i0.predictPE4 (s.exuI0In i)).brError = true ∨ (s.exu.i0.predictPE4 (s.exuI0In i)).brStartError = true

/-- Triggers and the debugger are quiet. -/
structure NoDebug (i : CpuIn) : Prop where
  i0Trigger : i.tlu.i0TriggerHitRawE4 = false
  i1Trigger : i.tlu.i1TriggerHitRawE4 = false
  halted : i.tlu.dbgHalted = false
  request : i.tlu.requestDebugModeWb = false

instance : DecidablePred NoDebug := fun i =>
  decidable_of_iff (i.tlu.i0TriggerHitRawE4 = false ∧ i.tlu.i1TriggerHitRawE4 = false ∧ i.tlu.dbgHalted = false ∧
    i.tlu.requestDebugModeWb = false) ⟨fun ⟨h0, h1, hh, hr⟩ => ⟨h0, h1, hh, hr⟩, fun ⟨h0, h1, hh, hr⟩ => ⟨h0, h1, hh, hr⟩⟩

/-- In the cycle of its completion a long operation commits cleanly unless the registers of E4 trap it. -/
theorem commitsCleanly_iff (hs : Sound s) (hal : Alone s) (hr : Reported s) (hq : Quiet s) (ha : s.fpu.Answers i.fpu)
    (hn : NoDebug i) (hc : s.Completes i) : s.CommitsCleanly i ↔ ¬s.LeftoverTraps i := by
  obtain ⟨hw, hfl⟩ := of_completes hs ha hc
  have hdone : ((s.decIn i).exuDivFinish || (s.decIn i).fpuRespValid) = true := Bool.or_eq_true_iff.mpr hc
  have hv : (s.tluIn i).i0ValidE4 = true := by
    have heq : (s.tluIn i).i0ValidE4 = s.dec.tluI0ValidE4 (s.decIn i) := rfl
    rw [heq, tluI0ValidE4, Bool.or_assoc, hdone, Bool.or_true]
  have hi1 : (s.tluIn i).i1ValidE4 = false := by
    have heq : (s.tluIn i).i1ValidE4 = (s.dec.e4d.i1valid && !s.flushLowerWb) := rfl
    rw [heq]
    cases hl : s.dec.e4d.live with
    | true => rw [((hw.only hal).e4 hl).2, Bool.false_and]
    | false => rw [(valid_of_not_live hl).2, Bool.false_and]
  have hpkt : (s.tluIn i).packetE4 = { legal := true } := by
    have heq : (s.tluIn i).packetE4 = s.dec.tluPacketE4 (s.decIn i) := rfl
    rw [heq, tluPacketE4, if_pos hdone]
  have hflush : s.tlu.flushLowerWb = false := hfl
  have htrig : s.tlu.i0TriggerHitE4 (s.tluIn i) = false := by
    have heq : (s.tluIn i).i0TriggerHitRawE4 = i.tlu.i0TriggerHitRawE4 := rfl
    rw [Tlu.i0TriggerHitE4, heq, hn.i0Trigger, Bool.and_false]
  have hdbg : (s.tluIn i).dbgHalted = false := hn.halted
  have hreq : (s.tluIn i).requestDebugModeWb = false := hn.request
  have hmis : (s.tluIn i).i0InstMisalignedE4 =
      (s.exu.i0.takenControlE4 (s.exuI0In i) && s.exu.i0.flushPathE4Eff.getLsbD 0) :=
    instMisalignedE4_atWork hr hq hw hv
  have hbr : s.tlu.rfpcI0E4 (s.tluIn i) =
      ((s.exu.i0.predictPE4 (s.exuI0In i)).brError || (s.exu.i0.predictPE4 (s.exuI0In i)).brStartError) := by
    simp only [Tlu.rfpcI0E4, Tlu.freezeRfpcE4, hq.noBlock hw, hv, hflush, htrig]
    rw [Bool.false_and, Bool.false_and, Bool.false_or, Bool.true_and, Bool.not_false, Bool.true_and, Bool.and_true]
    rfl
  have hexc : s.tlu.lsuI0ExcDc4 (s.tluIn i) = false := by
    simp [Tlu.lsuI0ExcDc4, Tlu.lsuI0ExcDc4Raw, hq.noError hw]
  have hacc : s.tlu.instAccE4 (s.tluIn i) = false := by rw [Tlu.instAccE4, hpkt]; rfl
  have hill : s.tlu.illegalE4 (s.tluIn i) = false := by rw [Tlu.illegalE4, hpkt]; rfl
  have hmis0 : s.tlu.instMisalignedI0E4 (s.tluIn i) =
      ((s.exu.i0.takenControlE4 (s.exuI0In i) && s.exu.i0.flushPathE4Eff.getLsbD 0) &&
        !s.tlu.rfpcI0E4 (s.tluIn i)) := by
    simp [Tlu.instMisalignedI0E4, hmis, hv, hflush, Tlu.lsuI0ExcDc4Raw, hq.noError hw, hacc, htrig, hdbg]
  have hmis1 : s.tlu.instMisalignedI1E4 (s.tluIn i) = false := by simp [Tlu.instMisalignedI1E4, hi1]
  have hraise : s.tlu.i0ExceptionValidE4 (s.tluIn i) =
      (s.tlu.instMisalignedI0E4 (s.tluIn i) && !s.tlu.rfpcI0E4 (s.tluIn i)) := by
    have hebreak : s.tlu.ebreakE4 (s.tluIn i) = false := by rw [Tlu.ebreakE4, hpkt]; rfl
    have hecall : s.tlu.ecallE4 (s.tluIn i) = false := by rw [Tlu.ecallE4, hpkt]; rfl
    simp [Tlu.i0ExceptionValidE4, hebreak, hecall, hill, hacc, Tlu.instMisalignedE4, hmis1, hdbg]
  rw [CommitsCleanly, LeftoverTraps, Tlu.tluI0CommitCmt, Tlu.tluI0KillWritebE4, hraise, hmis0, hbr, hexc, hacc, hill,
    htrig, hdbg, hreq, hv]
  cases s.exu.i0.takenControlE4 (s.exuI0In i) <;> cases s.exu.i0.flushPathE4Eff.getLsbD 0 <;>
    cases (s.exu.i0.predictPE4 (s.exuI0In i)).brError <;>
    cases (s.exu.i0.predictPE4 (s.exuI0In i)).brStartError <;> decide

end Cpu

end SocRV
