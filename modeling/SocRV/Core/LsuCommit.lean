import SocRV.Core.E4Pair
import SocRV.Lsu.StbufFifo

/-!
# Commit in the trap unit and in the load/store unit

The trap unit commits the two slots of E4, and kills their writes, by separate equations; the load/store unit applies
the kill one cycle later to the access it has moved to DC5.  For an access in DC4 the two agree, and a store that
commits in DC5 has either taken its entries of the store buffer or goes to the bus.
-/

namespace SocRV

/-! ## Accesses -/

namespace Lsc

variable {s : Lsc} {i : LscIn} {Q : LsuPkt → Prop}

/-- Every packet on its way has a property. -/
structure Packets (Q : LsuPkt → Prop) (s : Lsc) : Prop where
  dc1 : s.pktDc1.valid = true → Q s.pktDc1
  dc2 : s.pktDc2.valid = true → Q s.pktDc2
  dc3 : s.pktDc3.valid = true → Q s.pktDc3
  dc4 : s.pktDc4.valid = true → Q s.pktDc4
  dc5 : s.pktDc5.valid = true → Q s.pktDc5

/-- If what decode issues has it, the packets keep it. -/
theorem Packets.next (h : Packets Q s) (hg : Gated s) (hp : i.p.valid = true → Q i.p) : Packets Q (s.next i) := by
  constructor
  · intro hv
    rcases of_next_validDc1 hg hv with ⟨-, hold, heq⟩ | ⟨-, hnew, -, heq⟩
    · exact heq ▸ h.dc1 hold
    · exact heq ▸ hp hnew
  · intro hv
    rcases of_next_validDc2 hg hv with ⟨-, hold, heq, -⟩ | ⟨-, hnew, -, heq, -⟩
    · exact heq ▸ h.dc2 hold
    · exact heq ▸ h.dc1 hnew
  · intro hv
    rcases of_next_validDc3 hg hv with ⟨-, hold, heq, -⟩ | ⟨-, hnew, -, heq, -⟩
    · exact heq ▸ h.dc3 hold
    · exact heq ▸ h.dc2 hnew
  · intro hv
    obtain ⟨-, hold, -, heq⟩ := of_next_validDc4 hv
    exact heq ▸ h.dc3 hold
  · intro hv
    obtain ⟨hold, -, heq⟩ := of_next_validDc5 hv
    exact heq ▸ h.dc4 hold

/-- The access fault of DC2 goes with its packet. -/
theorem next_accessFaultDc2 (hg : Gated s) (hv : (s.next i).pktDc2.valid = true)
    (h : s.pktDc2.valid = true → s.accessFaultDc2 = !(s.addrInDccmDc2 || s.addrExternalDc2)) :
    (s.next i).accessFaultDc2 = !((s.next i).addrInDccmDc2 || (s.next i).addrExternalDc2) := by
  rcases of_next_validDc2 hg hv with ⟨hf, hold, -, -, hin, hext⟩ | ⟨hf, hnew, -, -, -, hin, hext⟩
  · rw [hin, hext, ← h hold]
    simp [next, freezeC1Dc2Clken, freezeC1Clken_freeze hf]
  · rw [hin, hext]
    simp [next, freezeC1Dc2Clken, freezeC1Clken_valid hf, hnew, accessFaultDc1]

/-- So does that of DC3. -/
theorem next_accessFaultDc3 (hg : Gated s) (hv : (s.next i).pktDc3.valid = true)
    (h2 : s.pktDc2.valid = true → s.accessFaultDc2 = !(s.addrInDccmDc2 || s.addrExternalDc2))
    (h3 : s.pktDc3.valid = true → s.accessFaultDc3 = !(s.addrInDccmDc3 || s.addrExternalDc3)) :
    (s.next i).accessFaultDc3 = !((s.next i).addrInDccmDc3 || (s.next i).addrExternalDc3) := by
  rcases of_next_validDc3 hg hv with ⟨hf, hold, -, -, hin, hext⟩ | ⟨hf, hnew, -, -, -, hin, hext⟩
  · rw [hin, hext, ← h3 hold]
    simp [next, freezeC1Dc3Clken, freezeC1Clken_freeze hf]
  · rw [hin, hext, ← h2 hnew]
    simp [next, freezeC1Dc3Clken, freezeC1Clken_valid hf, hnew]

end Lsc

namespace Cpu

open Dec DestPkt

variable {s : Cpu} {i : CpuIn}

/-- The packets of the load/store unit are loads or stores, an address that is neither in the DCCM nor external is a
fault, and a store in DC4 that has not faulted has taken its entries of the store buffer or is external. -/
structure Placed (s : Cpu) : Prop where
  kind : s.lsu.lsc.Packets fun p => p.load = !p.store
  fault2 : s.lsu.lsc.pktDc2.valid = true →
    s.lsu.lsc.accessFaultDc2 = !(s.lsu.lsc.addrInDccmDc2 || s.lsu.lsc.addrExternalDc2)
  fault3 : s.lsu.lsc.pktDc3.valid = true →
    s.lsu.lsc.accessFaultDc3 = !(s.lsu.lsc.addrInDccmDc3 || s.lsu.lsc.addrExternalDc3)
  store4 : s.lsu.lsc.pktDc4.valid = true → s.lsu.lsc.pktDc4.store = true → s.tlu.lsuErrorPktDc4.excValid = false →
    (s.stbuf.reqvldDc4 || s.lsu.lsc.addrExternalDc4) = true

theorem placed_reset (m : DccmMem) : Placed { mem := m } :=
  ⟨⟨nofun, nofun, nofun, nofun, nofun⟩, nofun, nofun, nofun⟩

/-- The trap unit sees the fault of DC3 one cycle later. -/
theorem next_excValid : (s.next i).tlu.lsuErrorPktDc4.excValid = (s.lsuErrorPktDc3 i).excValid := by
  have hpkt : (s.next i).tlu.lsuErrorPktDc4 =
      rvdffs ((s.lsuErrorPktDc3 i).excValid || s.tlu.lsuErrorPktDc4.excValid || (s.tluIn i).clkOverride)
        (s.lsuErrorPktDc3 i) s.tlu.lsuErrorPktDc4 := rfl
  rw [hpkt]
  cases h3 : (s.lsuErrorPktDc3 i).excValid <;> cases h4 : s.tlu.lsuErrorPktDc4.excValid <;>
    cases (s.tluIn i).clkOverride <;> simp [rvdffs, h3, h4]

/-- What decode issues is either a load or a store. -/
theorem lsuP_kind (hv : (s.lsuP i).valid = true) : (s.lsuP i).load = !(s.lsuP i).store := by
  have hd : s.dec.lsuDecodeD (s.decIn i) = true := hv
  simp only [lsuDecodeD, Bool.or_eq_true, Bool.and_eq_true] at hd
  simp only [lsuP]
  rcases hd with ⟨hdec, hl⟩ | ⟨hdec, hl⟩
  · simpa [hl] using i0dp_wf.kind (i0Legal_dp hdec) hl
  · simpa [(stall_of_i1Lsu hdec hl).1] using i1dp_wf.kind (i1Decode_dp hdec).1 hl

/-- A cycle keeps what is known of the packets of the load/store unit. -/
theorem Placed.next (h : Placed s) (hs : Sound s) : Placed (s.next i) := by
  have hg := hs.lsc
  constructor
  · exact h.kind.next hg lsuP_kind
  · intro hv
    exact Lsc.next_accessFaultDc2 hg hv h.fault2
  · intro hv
    exact Lsc.next_accessFaultDc3 hg hv h.fault2 h.fault3
  · intro hv hst hexc
    obtain ⟨hf, hv3, hfl, heq⟩ := Lsc.of_next_validDc4 hv
    have hst3 : s.lsu.lsc.pktDc3.store = true := hst
    have hfz : s.freeze i = false := hf
    have hfl3 : s.flushes.dc3 = false := hfl
    -- without a fault its address is in the DCCM or external
    have hplace : (s.lsu.lsc.addrInDccmDc3 || s.lsu.lsc.addrExternalDc3) = true := by
      rw [next_excValid, lsuErrorPktDc3, hv3, hfl3] at hexc
      simp only [Bool.not_false, Bool.and_true, Bool.or_eq_false_iff] at hexc
      have hfault := h.fault3 hv3
      rw [hexc.1.1] at hfault
      rw [← Bool.not_eq_false]
      intro hno
      rw [hno] at hfault
      exact Bool.false_ne_true hfault
    have hreq : (s.next i).stbuf.reqvldDc4 = (s.lsu.lsc.pktDc3.valid && s.lsu.lsc.pktDc3.store &&
        s.lsu.lsc.addrInDccmDc3 && !s.flushes.dc3 && !s.freeze i) := rfl
    have hext : (s.next i).lsu.lsc.addrExternalDc4 = s.lsu.lsc.addrExternalDc3 := rfl
    rw [hreq, hext, hv3, hst3, hfl3, hfz]
    simpa using hplace

/-- In every state of a run the packets of the load/store unit are as said. -/
theorem placed_run (m : DccmMem) (w : Nat → CpuIn) (n : Nat) : Placed ((machine m).run w n) := by
  induction n with
  | zero => exact placed_reset m
  | succ n ih => exact ih.next (sound_run m w n)

end Cpu

/-! ## Commit and kill -/

namespace Dec

variable {s : Dec} {i : DecIn}

/-- An access in slot `i0` is issued as an instruction without a trap and a flush of its own. -/
theorem dt_plain_of_lsu0 (h : (s.dd i).lsu0 = true) : (s.dt i).Plain := by
  rw [dd_lsu0, Bool.and_eq_true] at h
  obtain ⟨hlegal, hlsu⟩ := h
  have hdp := i0Legal_dp hlegal
  have hkind := i0dp_wf.lsu hdp
  rw [hlsu] at hkind
  have hsync : ¬((i0dp i).mret = true ∨ (i0dp i).ecall = true ∨ (i0dp i).ebreak = true ∨ (i0dp i).fenceI = true) := by
    intro hs
    obtain ⟨-, hload, hstore⟩ := i0dp_kinds.sync hdp hs
    rw [hload, hstore] at hkind
    exact Bool.false_ne_true hkind.symm
  rw [not_or, not_or, not_or, Bool.not_eq_true, Bool.not_eq_true, Bool.not_eq_true, Bool.not_eq_true] at hsync
  obtain ⟨hmret, hecall, hebreak, hfence⟩ := hsync
  have hicaf : i.i0.icafD = false := by
    rw [← Bool.not_eq_true]
    intro hi
    rw [i0dp_error (Or.inr hi)] at hlsu
    exact absurd hlsu (by simp [DecPkt.error])
  exact ⟨hlegal, by simp [dt, hicaf], by simp [dt, hfence], by simp [dt, hlegal, itype_other ⟨hmret, hecall, hebreak⟩]⟩

end Dec

namespace Tlu

variable {s : Tlu} {i : TluIn}

/-- Something is wrong with the instruction in slot `i0`: it is fetched again, traps, or faults. -/
def i0Faults (s : Tlu) (i : TluIn) : Bool :=
  s.rfpcI0E4 i || s.lsuI0ExcDc4 i || s.instAccE4 i || s.instMisalignedI0E4 i || s.ebreakE4 i || s.ecallE4 i ||
    s.illegalE4 i || s.i0TriggerHitE4 i

/-- Something is wrong with the instruction in slot `i1`. -/
def i1Faults (s : Tlu) (i : TluIn) : Bool :=
  s.rfpcI1E4 i || s.lsuI1ExcDc4 i || s.instMisalignedI1E4 i || s.i1TriggerHitE4 i

/-- Outside debug mode slot `i0` commits exactly when it is valid and not killed. -/
theorem tluI0CommitCmt_eq (hd : i.dbgHalted = false) (hr : i.requestDebugModeWb = false) :
    s.tluI0CommitCmt i = (i.i0ValidE4 && !s.tluI0KillWritebE4 i) := by
  unfold tluI0CommitCmt tluI0KillWritebE4
  rw [hd, hr]
  simp [Bool.and_assoc]

/-- So does slot `i1`. -/
theorem tluI1CommitCmt_eq (hd : i.dbgHalted = false) (hr : i.requestDebugModeWb = false) :
    s.tluI1CommitCmt i = (i.i1ValidE4 && !s.tluI1KillWritebE4 i) := by
  unfold tluI1CommitCmt tluI1KillWritebE4 lsuExcValidE4
  rw [hd, hr]
  cases i.i1ValidE4 <;> cases i.i0BrMpE4 <;> simp [Bool.and_assoc]

/-- A fault of a plain instruction in slot `i0` kills its write. -/
theorem i0Kill_of_i0Faults (hp : i.i0ValidE4 = true → i.packetE4.Plain) (h : s.i0Faults i = true) :
    s.tluI0KillWritebE4 i = true := by
  have hno : s.ebreakE4 i = false ∧ s.ecallE4 i = false ∧ s.illegalE4 i = false := by
    unfold ebreakE4 ecallE4 illegalE4
    cases hv : i.i0ValidE4 with
    | false => simp
    | true => simp [(hp hv).legal, (hp hv).itype]
  unfold i0Faults at h
  unfold tluI0KillWritebE4
  rw [hno.1, hno.2.1, hno.2.2] at h
  simp only [Bool.or_false, Bool.or_eq_true] at h ⊢
  tauto

/-- A fault of slot `i1` kills its write. -/
theorem i1Kill_of_i1Faults (h : s.i1Faults i = true) : s.tluI1KillWritebE4 i = true := by
  unfold i1Faults at h
  unfold tluI1KillWritebE4 lsuExcValidE4 instMisalignedE4 triggerHitE4
  simp only [Bool.or_eq_true] at h ⊢
  tauto

/-- A fault of an access in slot `i0` kills its write, be it for the fault or for a trigger. -/
theorem i0Kill_of_access (hraw : s.lsuI0ExcDc4Raw = true) (hfl : s.flushLowerWb = false) :
    s.tluI0KillWritebE4 i = true := by
  unfold tluI0KillWritebE4 lsuI0ExcDc4
  rw [hraw, hfl]
  cases s.i0TriggerHitE4 i <;> simp

/-- A fault of an access in slot `i1` kills its write, for itself or for what is wrong before it. -/
theorem i1Kill_of_access (hraw : s.lsuI1ExcDc4Raw = true) (hfl : s.flushLowerWb = false) (hp : i.packetE4.Plain) :
    s.tluI1KillWritebE4 i = true := by
  by_contra hno
  rw [Bool.not_eq_true] at hno
  unfold tluI1KillWritebE4 at hno
  simp only [Bool.or_eq_false_iff] at hno
  obtain ⟨⟨⟨⟨⟨⟨⟨hr, -⟩, hexc⟩, hmp⟩, hacc⟩, hmis⟩, -⟩, ht⟩ := hno
  have hplain : s.ebreakE4 i = false ∧ s.ecallE4 i = false ∧ s.illegalE4 i = false := by
    simp [ebreakE4, ecallE4, illegalE4, hp.legal, hp.itype]
  have hexc0 : s.i0ExceptionValidE4 i = false := by
    simp [i0ExceptionValidE4, hplain.1, hplain.2.1, hplain.2.2, hacc, hmis]
  have hvalid : s.lsuErrorPktDc4.excValid = true := by
    unfold lsuI1ExcDc4Raw at hraw
    exact (Bool.and_eq_true_iff.mp hraw).1
  have hlsu : s.lsuI1ExcDc4 i = true := by
    simp [lsuI1ExcDc4, lsuExcValidE4Raw, hraw, hvalid, hr, hmp, hexc0, hfl, ht]
  rw [lsuExcValidE4, hlsu, Bool.or_true] at hexc
  exact absurd hexc.symm Bool.false_ne_true

/-- What kills slot `i0` kills slot `i1`. -/
theorem i1Kill_of_i0Kill (h : s.tluI0KillWritebE4 i = true) : s.tluI1KillWritebE4 i = true := by
  unfold tluI0KillWritebE4 at h
  unfold tluI1KillWritebE4 lsuExcValidE4 instMisalignedE4 triggerHitE4
  simp only [Bool.or_eq_true] at h ⊢
  tauto

end Tlu

namespace Cpu

open Dec DestPkt

variable {s : Cpu} {i : CpuIn} {m : DccmMem} {w : Nat → CpuIn} {n : Nat}

/-- `lsu_commit_dc5` of a core cycle. -/
def lsuCommitDc5 (s : Cpu) (i : CpuIn) : Bool := s.lsu.commitDc5 (s.lsuIn i)

/-- The access in DC4 commits in the next cycle unless the pipeline is flushed or its slot is killed. -/
theorem lsuCommitDc5_next (j : CpuIn) : (s.next i).lsuCommitDc5 j =
    (s.lsu.lsc.pktDc4.valid && !s.flushLowerWb && (s.lsu.lsc.pktDc4.store || s.lsu.lsc.pktDc4.load) &&
      !(s.tlu.tluI0KillWritebE4 (s.tluIn i) ||
        (s.tlu.tluI1KillWritebE4 (s.tluIn i) && !s.lsu.lsc.i0ValidDc4))) := rfl

/-- An access of slot `i0` in DC4 is not a long operation. -/
theorem no_long_of_lsu0 (hl : ((machine m).run w n).dec.e4d.lsu0 = true) :
    ((machine m).run w n).dec.e4d.i0div = false ∧ ((machine m).run w n).dec.e4d.i0fpu = false := by
  have hlsu := lsu0_run hl
  obtain ⟨⟨k, heq⟩, -⟩ := (traced_run m w n).e4 (live_of_lsu0 hl)
  have hdiv : ((machine m).run w n).dec.e4d.i0div = (ddOf m w ((machine m).run w n).dec.e4d.seq).i0div :=
    (congrArg DestPkt.i0div heq).trans rfl
  have hfpu : ((machine m).run w n).dec.e4d.i0fpu = (ddOf m w ((machine m).run w n).dec.e4d.seq).i0fpu :=
    (congrArg DestPkt.i0fpu heq).trans rfl
  rw [hdiv, hfpu, ← Bool.not_eq_true, ← Bool.not_eq_true]
  constructor
  · intro h
    exact Bool.false_ne_true ((dd_lsu0_of_div h).symm.trans hlsu)
  · intro h
    exact Bool.false_ne_true ((dd_lsu0_of_fpu h).symm.trans hlsu)

section Access

variable (ha : (machine m).Respects (fun s i => s.fpu.Answers i.fpu) w)
  (hv : ((machine m).run w n).lsu.lsc.pktDc4.valid = true)

include hv

/-- The slot of the access in DC4 is that of decode. -/
theorem lsu0_of_access (hslot : ((machine m).run w n).lsu.lsc.i0ValidDc4 = true) :
    ((machine m).run w n).dec.e4d.lsu0 = true :=
  ((aligned_run m w n).dc4.slot hv).symm.trans hslot

@[inherit_doc lsu0_of_access]
theorem lsu1_of_access (hslot : ((machine m).run w n).lsu.lsc.i0ValidDc4 = false) :
    ((machine m).run w n).dec.e4d.lsu1 = true := by
  have h0 : ((machine m).run w n).dec.e4d.lsu0 = false := ((aligned_run m w n).dc4.slot hv).symm.trans hslot
  have hvalid := (aligned_run m w n).dc4.valid
  rw [hv, h0, Bool.false_or] at hvalid
  exact hvalid.symm

include ha in
/-- No long operation completes while an access is in slot `i0` of E4. -/
theorem not_completes_of_access (hslot : ((machine m).run w n).lsu.lsc.i0ValidDc4 = true) :
    ¬((machine m).run w n).Completes (w n) := by
  intro hc
  have hl := lsu0_of_access hv hslot
  obtain ⟨hwork, -⟩ := of_completes (aligned_run m w n).toSound (ha n) hc
  obtain ⟨hdiv, hfpu⟩ := no_long_of_lsu0 hl
  rcases ((hwork.only (alone_run ha n)).e4 (live_of_lsu0 hl)).1 with h | h
  · exact Bool.false_ne_true (hdiv.symm.trans h)
  · exact Bool.false_ne_true (hfpu.symm.trans h)

include ha in
/-- The access in slot `i0` is valid in E4 unless the pipeline is flushed. -/
theorem i0ValidE4_of_access (hslot : ((machine m).run w n).lsu.lsc.i0ValidDc4 = true) :
    (((machine m).run w n).tluIn (w n)).i0ValidE4 = !((machine m).run w n).flushLowerWb := by
  have hl := lsu0_of_access hv hslot
  have hno := not_completes_of_access ha hv hslot
  have hv0 : ((machine m).run w n).dec.e4d.i0valid = true := by
    unfold DestPkt.lsu0 at hl
    exact (Bool.and_eq_true_iff.mp hl).1
  obtain ⟨hdiv, hfpu⟩ := no_long_of_lsu0 hl
  have heq : (((machine m).run w n).tluIn (w n)).i0ValidE4 =
      ((((machine m).run w n).dec.e4d.i0valid && !((machine m).run w n).dec.e4d.i0div &&
        !((machine m).run w n).dec.e4d.i0fpu && !((machine m).run w n).flushLowerWb) ||
        ((machine m).run w n).divFinish (w n) || ((machine m).run w n).fpuRespValid (w n)) := rfl
  unfold Completes at hno
  rw [not_or, Bool.not_eq_true, Bool.not_eq_true] at hno
  rw [heq, hv0, hdiv, hfpu, hno.1, hno.2]
  simp

/-- So is the access in slot `i1`. -/
theorem i1ValidE4_of_access (hslot : ((machine m).run w n).lsu.lsc.i0ValidDc4 = false) :
    (((machine m).run w n).tluIn (w n)).i1ValidE4 = !((machine m).run w n).flushLowerWb := by
  have hl := lsu1_of_access hv hslot
  unfold DestPkt.lsu1 at hl
  have heq : (((machine m).run w n).tluIn (w n)).i1ValidE4 =
      (((machine m).run w n).dec.e4d.i1valid && !((machine m).run w n).flushLowerWb) := rfl
  rw [heq, (Bool.and_eq_true_iff.mp hl).1, Bool.true_and]

variable (hd : (w n).tlu.dbgHalted = false) (hr : (w n).tlu.requestDebugModeWb = false)

include ha hd hr

/-- The load/store unit commits the access of slot `i0` exactly when the trap unit commits the slot. -/
theorem commit_slot0 (hslot : ((machine m).run w n).lsu.lsc.i0ValidDc4 = true) :
    ((machine m).run w (n + 1)).lsuCommitDc5 (w (n + 1)) =
      ((machine m).run w n).tlu.tluI0CommitCmt (((machine m).run w n).tluIn (w n)) := by
  have hkind : ((machine m).run w n).lsu.lsc.pktDc4.load = !((machine m).run w n).lsu.lsc.pktDc4.store :=
    (placed_run m w n).kind.dc4 hv
  rw [Tlu.tluI0CommitCmt_eq (i := ((machine m).run w n).tluIn (w n)) hd hr,
    i0ValidE4_of_access ha hv hslot, Machine.run_succ]
  refine (lsuCommitDc5_next _).trans ?_
  rw [hv, hkind, hslot]
  simp

omit ha in
/-- The load/store unit commits the access of slot `i1` exactly when the trap unit commits the slot. -/
theorem commit_slot1 (hslot : ((machine m).run w n).lsu.lsc.i0ValidDc4 = false) :
    ((machine m).run w (n + 1)).lsuCommitDc5 (w (n + 1)) =
      ((machine m).run w n).tlu.tluI1CommitCmt (((machine m).run w n).tluIn (w n)) := by
  have hkind : ((machine m).run w n).lsu.lsc.pktDc4.load = !((machine m).run w n).lsu.lsc.pktDc4.store :=
    (placed_run m w n).kind.dc4 hv
  have hkill := Tlu.i1Kill_of_i0Kill (s := ((machine m).run w n).tlu) (i := ((machine m).run w n).tluIn (w n))
  rw [Tlu.tluI1CommitCmt_eq (i := ((machine m).run w n).tluIn (w n)) hd hr,
    i1ValidE4_of_access hv hslot, Machine.run_succ]
  refine (lsuCommitDc5_next _).trans ?_
  rw [hv, hkind, hslot]
  cases h0 : ((machine m).run w n).tlu.tluI0KillWritebE4 (((machine m).run w n).tluIn (w n)) with
  | false => simp
  | true => simp [hkill h0]

/-- An access in slot `i0` with which something is wrong does not commit. -/
theorem not_commit_slot0 (hslot : ((machine m).run w n).lsu.lsc.i0ValidDc4 = true)
    (hf : ((machine m).run w n).tlu.i0Faults (((machine m).run w n).tluIn (w n)) = true) :
    ((machine m).run w n).tlu.tluI0CommitCmt (((machine m).run w n).tluIn (w n)) = false := by
  have hl := lsu0_of_access hv hslot
  have hplain : (((machine m).run w n).tluIn (w n)).packetE4.Plain := by
    rw [packetE4_run (not_completes_of_access ha hv hslot) (live_of_lsu0 hl)]
    exact dt_plain_of_lsu0 (lsu0_run hl)
  rw [Tlu.tluI0CommitCmt_eq (i := ((machine m).run w n).tluIn (w n)) hd hr,
    Tlu.i0Kill_of_i0Faults (fun _ => hplain) hf]
  exact Bool.and_false _

omit hv in
/-- An instruction in slot `i1` does not commit if something is wrong with it or with the instruction in slot `i0`, or
if that one is mispredicted. -/
theorem not_commit_slot1
    (hf : (((machine m).run w n).tlu.i0Faults (((machine m).run w n).tluIn (w n)) ||
      ((machine m).run w n).tlu.i0MpE4 (((machine m).run w n).tluIn (w n)) ||
      ((machine m).run w n).tlu.i1Faults (((machine m).run w n).tluIn (w n))) = true) :
    ((machine m).run w n).tlu.tluI1CommitCmt (((machine m).run w n).tluIn (w n)) = false := by
  have hone := oneCause_run ha (n := n)
  rw [Tlu.tluI1CommitCmt_eq (i := ((machine m).run w n).tluIn (w n)) hd hr]
  cases hv1 : (((machine m).run w n).tluIn (w n)).i1ValidE4 with
  | false => rfl
  | true =>
    have hkill : ((machine m).run w n).tlu.tluI1KillWritebE4 (((machine m).run w n).tluIn (w n)) = true := by
      rw [Bool.or_eq_true, Bool.or_eq_true] at hf
      rcases hf with (h0 | hmp) | h1
      · exact Tlu.i1Kill_of_i0Kill (Tlu.i0Kill_of_i0Faults (fun _ => hone.pair hv1) h0)
      · -- next to a jump that flushes without a misprediction there is no second instruction
        obtain ⟨-, -, -, -, hnext⟩ := hone.branch0 (Tlu.of_i0MpE4 hmp).1
        have hbr := hnext.resolve_right (by rw [hv1]; decide)
        simp [Tlu.tluI1KillWritebE4, hbr]
      · exact Tlu.i1Kill_of_i1Faults h1
    rw [hkill]
    rfl

end Access

/-! ## After a flush -/

/-- The stores still on their way after a flush were decoded after it, unless the pipeline was frozen with a store in
DC3. -/
theorem late_of_flush (hs : Aligned s) (hp : Placed s) (hfl : s.flushLowerWb = true)
    (hdc3 : s.freeze i = true → s.lsu.lsc.pktDc3.valid = true → s.lsu.lsc.pktDc3.store = false) :
    (s.next i).lsu.lsc.Packets fun p => p.store = true → s.dec.cycle < p.tag := by
  have hup : s.flushes.dc2Up = true := by rw [flushes_dc2Up, hfl, Bool.or_true]
  have h3 : s.flushes.dc3 = true := by rw [flushes_dc3, hfl, Bool.or_true]
  -- a frozen pipeline has the pending load in DC2 and nothing behind it
  have hpending : s.freeze i = true → s.lsu.bus.loadPending = true := by
    intro hf
    rw [freeze_of_flush hfl] at hf
    exact (Bool.and_eq_true_iff.mp hf).1
  constructor
  · intro hv hst
    rcases Lsc.of_next_validDc1 hs.lsc hv with ⟨hf, hold, -⟩ | ⟨-, -, hno, -⟩
    · have hext := (hs.one.load (hpending hf)).1
      have hempty := hs.one.empty (by rw [LsuBus.places, hext]; exact List.mem_cons_self ..)
      exact absurd (hempty.symm.trans hold) Bool.false_ne_true
    · exact absurd (hno.symm.trans hup) Bool.false_ne_true
  · intro hv hst
    rcases Lsc.of_next_validDc2 hs.lsc hv with ⟨hf, hold, heq, -⟩ | ⟨-, -, hno, -⟩
    · have hload := (hs.one.load (hpending hf)).2.1
      have hkind := hp.kind.dc2 hold
      have heq' : (s.next i).lsu.lsc.pktDc2 = s.lsu.lsc.pktDc2 := heq
      rw [heq'] at hst
      rw [hload, hst] at hkind
      exact absurd hkind.symm Bool.false_ne_true
    · exact absurd (hno.symm.trans hup) Bool.false_ne_true
  · intro hv hst
    rcases Lsc.of_next_validDc3 hs.lsc hv with ⟨hf, hold, heq, -⟩ | ⟨-, -, hno, -⟩
    · have heq' : (s.next i).lsu.lsc.pktDc3 = s.lsu.lsc.pktDc3 := heq
      rw [heq'] at hst
      exact absurd ((hdc3 hf hold).symm.trans hst) Bool.false_ne_true
    · exact absurd (hno.symm.trans hup) Bool.false_ne_true
  · intro hv
    obtain ⟨-, -, hno, -⟩ := Lsc.of_next_validDc4 hv
    exact absurd (hno.symm.trans h3) Bool.false_ne_true
  · intro hv
    obtain ⟨-, hno, -⟩ := Lsc.of_next_validDc5 hv
    exact absurd (hno.symm.trans hfl) Bool.false_ne_true

/-- A misprediction that the primary ALU has found, with its pair in E3, removes what is behind the pair, and of the
pair what is behind a branch in slot `i0`. -/
theorem older_of_mispredict (hs : Aligned s) (hff : s.dec.flushFinalE3 = true) :
    ((s.next i).lsu.lsc.Packets fun p => p.tag ≤ s.dec.e3d.seq ∨ s.dec.cycle < p.tag) ∧
      (s.dec.i0FlushFinalE3 = true →
        (s.next i).lsu.lsc.Packets fun p => p.tag ≤ s.dec.e4d.seq ∨ s.dec.cycle < p.tag) := by
  have hup : s.flushes.dc2Up = true := by rw [flushes_dc2Up, hff, Bool.true_or]
  have hthaw : s.freeze i = false := by
    rw [← Bool.not_eq_true]
    exact fun hf => Bool.false_ne_true ((hs.not_flushFinalE3 hf).symm.trans hff)
  have h1 : ¬(s.next i).lsu.lsc.pktDc1.valid = true := by
    intro hv
    rcases Lsc.of_next_validDc1 hs.lsc hv with ⟨hf, -⟩ | ⟨-, -, hno, -⟩
    · exact Bool.false_ne_true (hthaw.symm.trans hf)
    · exact Bool.false_ne_true (hno.symm.trans hup)
  have h2 : ¬(s.next i).lsu.lsc.pktDc2.valid = true := by
    intro hv
    rcases Lsc.of_next_validDc2 hs.lsc hv with ⟨hf, -⟩ | ⟨-, -, hno, -⟩
    · exact Bool.false_ne_true (hthaw.symm.trans hf)
    · exact Bool.false_ne_true (hno.symm.trans hup)
  have h3 : ¬(s.next i).lsu.lsc.pktDc3.valid = true := by
    intro hv
    rcases Lsc.of_next_validDc3 hs.lsc hv with ⟨hf, -⟩ | ⟨-, -, hno, -⟩
    · exact Bool.false_ne_true (hthaw.symm.trans hf)
    · exact Bool.false_ne_true (hno.symm.trans hup)
  have h5 : (s.next i).lsu.lsc.pktDc5.valid = true → (s.next i).lsu.lsc.pktDc5.tag = s.dec.e4d.seq := by
    intro hv
    obtain ⟨hold, -, heq⟩ := Lsc.of_next_validDc5 hv
    have heq' : (s.next i).lsu.lsc.pktDc5 = s.lsu.lsc.pktDc4 := heq
    rw [heq', hs.dc4.tag hold]
  refine ⟨⟨fun hv => absurd hv h1, fun hv => absurd hv h2, fun hv => absurd hv h3, fun hv => ?_, fun hv => ?_⟩,
    fun h0 => ⟨fun hv => absurd hv h1, fun hv => absurd hv h2, fun hv => absurd hv h3, fun hv => ?_, fun hv => ?_⟩⟩
  · obtain ⟨-, hold, -, heq⟩ := Lsc.of_next_validDc4 hv
    have heq' : (s.next i).lsu.lsc.pktDc4 = s.lsu.lsc.pktDc3 := heq
    rw [heq', hs.dc3.tag hold]
    exact Or.inl (Nat.le_refl _)
  · rw [h5 hv]
    exact Or.inl hs.ordered.e4
  · obtain ⟨-, -, hno, -⟩ := Lsc.of_next_validDc4 hv
    have hkill : s.flushes.dc3 = true := by rw [flushes_dc3, h0, Bool.true_or]
    exact absurd (hno.symm.trans hkill) Bool.false_ne_true
  · rw [h5 hv]
    exact Or.inl (Nat.le_refl _)

/-- What holds of the packets on their way after cycle `n`, and of every later tag, goes on to hold. -/
theorem packets_run {Q : LsuPkt → Prop} (h : ((machine m).run w (n + 1)).lsu.lsc.Packets Q)
    (hQ : ∀ p : LsuPkt, n < p.tag → Q p) {k : Nat} (hk : n < k) : ((machine m).run w k).lsu.lsc.Packets Q := by
  induction k, hk using Nat.le_induction with
  | base => exact h
  | succ k hk ih =>
    refine ih.next (aligned_run m w k).lsc fun _ => hQ _ ?_
    have htag : (((machine m).run w k).lsuP (w k)).tag = ((machine m).run w k).dec.cycle := rfl
    exact (htag.trans (run_cycle m w k)).symm ▸ hk

/-- From then on only stores decoded after the flush are on their way. -/
theorem late_run (hfl : ((machine m).run w n).flushLowerWb = true)
    (hdc3 : ((machine m).run w n).freeze (w n) = true → ((machine m).run w n).lsu.lsc.pktDc3.valid = true →
      ((machine m).run w n).lsu.lsc.pktDc3.store = false) {k : Nat} (hk : n < k) :
    ((machine m).run w k).lsu.lsc.Packets fun p => p.store = true → n < p.tag := by
  have hlate := late_of_flush (i := w n) (aligned_run m w n) (placed_run m w n) hfl hdc3
  rw [run_cycle] at hlate
  exact packets_run hlate (fun p hp _ => hp) hk

end Cpu

end SocRV
