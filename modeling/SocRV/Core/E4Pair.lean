import SocRV.Core.LongOpTrap
import SocRV.Core.OneCause

/-!
# The pair in E4 has one cause

The signals E4 shows to the trap unit come from the registers of decode, of the execution unit and of the load/store
unit.  In every run they speak of one pair of instructions, the one decoded in the cycle of its packet, so what decode
keeps apart is apart in E4.
-/

namespace SocRV

/-! ## Kinds of instructions -/

/-- What `legal` instructions of the table are not at once. -/
structure DecPkt.Kinds (p : DecPkt) : Prop where
  branch : p.legal = true → p.condbr = true ∨ p.jal = true → p.fenceI = false ∧ p.load = false ∧ p.store = false
  compare : p.legal = true → p.beq = true ∨ p.bne = true ∨ p.blt = true ∨ p.bge = true → p.condbr = true
  sync : p.legal = true → p.mret = true ∨ p.ecall = true ∨ p.ebreak = true ∨ p.fenceI = true →
    p.postsync = true ∧ p.load = false ∧ p.store = false
  fence : p.legal = true → p.fenceI = true → p.mret = false ∧ p.ecall = false ∧ p.ebreak = false

/-- Of the system instructions without a CSR only `wfi` has bit 22 set. -/
theorem decLegal_wfi {b : Nat → Bool} (h : decLegal b = true) (h6 : b 6 = true) (h4 : b 4 = true)
    (h12 : b 12 = false) (h13 : b 13 = false) : b 22 = false ∨ (b 20 = true ∧ b 29 = false) := by
  by_contra hno
  rw [not_or, not_and_or, Bool.not_eq_false, Bool.not_eq_true, Bool.not_eq_false] at hno
  obtain ⟨h22, h20 | h29⟩ := hno
  · simp [decLegal, h6, h4, h12, h13, h22, h20] at h
  · simp [decLegal, h6, h4, h12, h13, h22, h29] at h

/-- A legal word with bit 3 has bit 2. -/
theorem decLegal_three {b : Nat → Bool} (h : decLegal b = true) (h3 : b 3 = true) : b 2 = true := by
  by_contra h2
  simp [decLegal, h3, h2] at h

/-- No row of the table is of two kinds at once. -/
theorem decDecCtl_kinds (i : BitVec 32) : (decDecCtl i).Kinds := by
  have hfive := decLegal_five (b := i.getLsbD)
  have hsystem := decLegal_wfi (b := i.getLsbD)
  have hthree := decLegal_three (b := i.getLsbD)
  have hstore := decLegal_store (b := i.getLsbD)
  unfold decDecCtl
  generalize i.getLsbD = b at hfive hstore hsystem hthree ⊢
  constructor
  · intro h hb
    have h5 := hfive h
    dsimp only at hb ⊢
    cases e6 : b 6 <;> cases e5 : b 5 <;> cases e4 : b 4 <;> cases e2 : b 2 <;> simp_all
  · intro h hb
    have h5 := hstore h
    dsimp only at hb ⊢
    cases e6 : b 6 <;> cases e5 : b 5 <;> cases e4 : b 4 <;> cases e2 : b 2 <;> simp_all
  · intro h hs
    have h5 := hfive h
    have h22 := hsystem h
    dsimp only at hs ⊢
    simp only [Bool.and_eq_true, Bool.not_eq_true'] at hs
    rcases hs with ⟨⟨⟨⟨h29, h13⟩, h12⟩, h6⟩, h4⟩ | ⟨⟨⟨⟨⟨-, h20⟩, h13⟩, h12⟩, h6⟩, h4⟩ |
      ⟨⟨⟨⟨⟨h22, -⟩, h13⟩, h12⟩, h6⟩, h4⟩ | ⟨⟨h12, h5'⟩, h3⟩
    · simp [h13, h12, h6, h4, (h22 h6 h4 h12 h13).resolve_right (by simp [h29])]
    · simp [h13, h12, h6, h4, (h22 h6 h4 h12 h13).resolve_right (by simp [h20])]
    · simp [h13, h12, h6, h4, h22]
    · simp [h12, h5', h3, hthree h h3]
  · intro h hf
    have h5 := hfive h
    dsimp only at hf ⊢
    cases e6 : b 6 <;> cases e5 : b 5 <;> simp_all

/-- The packet of an error is of no kind. -/
theorem DecPkt.error_kinds : DecPkt.error.Kinds :=
  ⟨fun _ _ => ⟨rfl, rfl, rfl⟩, fun _ => by simp [DecPkt.error], fun _ => by simp [DecPkt.error],
    fun _ => by simp [DecPkt.error]⟩

/-- The overlay of slot `i0` makes no instruction of two kinds at once. -/
theorem i0Dp_kinds (i : BitVec 32) (fpEnabled : Bool) (frm : BitVec 3) (bad : Bool) :
    (i0Dp i fpEnabled frm bad).Kinds := by
  unfold i0Dp
  split_ifs
  · exact DecPkt.error_kinds
  · exact ⟨by simp, by simp, by simp, by simp⟩
  · exact ⟨by simp, by simp, by simp, by simp⟩
  · exact ⟨by simp, by simp, by simp, by simp⟩
  · exact decDecCtl_kinds i

theorem i1Dp_kinds (i : BitVec 32) (bad : Bool) : (i1Dp i bad).Kinds := by
  unfold i1Dp
  split_ifs
  · exact DecPkt.error_kinds
  · exact decDecCtl_kinds i

/-! ## What decode issues with a trap packet -/

namespace Dec

open DestPkt

variable {s : Dec} {i : DecIn}

/-- What decode sees in slot `i0` is never of two kinds at once. -/
theorem i0dp_kinds : (i0dp i).Kinds := i0Dp_kinds _ _ _ _

/-- What decode sees in slot `i1` is never of two kinds at once. -/
theorem i1dp_kinds : (i1dp i).Kinds := i1Dp_kinds _ _

/-- What could not be fetched or was mispredicted as a branch is decoded as a harmless instruction. -/
theorem i0dp_error (h : i.i0.brErrorAll i.leak1Mode = true ∨ i.i0.icafD = true) : i0dp i = DecPkt.error := by
  have hbad : (i.i0.brErrorAll i.leak1Mode || i.i0.instrError) = true := by
    rcases h with h | h
    · rw [h, Bool.true_or]
    · rw [IbSlot.instrError, h, Bool.true_or, Bool.true_or, Bool.or_true]
  rw [i0dp, hbad, i0Dp, if_pos rfl]

/-- A branch error in slot `i1` replaces its packet by that of an error. -/
theorem i1dp_error (h : i.i1.brErrorAll false = true) : i1dp i = DecPkt.error := by
  rw [i1dp, h, i1Dp, if_pos rfl]

/-- Instructions that are not system instructions do not name a trap. -/
theorem itype_other {p : DecPkt} (h : p.mret = false ∧ p.ecall = false ∧ p.ebreak = false) : p.itype = .other := by
  simp [DecPkt.itype, h.1, h.2.1, h.2.2]

/-- The kind of a system instruction is that of its packet. -/
theorem of_itype {p : DecPkt} (h : p.itype ≠ .other) : p.mret = true ∨ p.ecall = true ∨ p.ebreak = true := by
  by_contra hno
  rw [not_or, not_or, Bool.not_eq_true, Bool.not_eq_true, Bool.not_eq_true] at hno
  exact h (itype_other hno)

/-- Slot `i1` is issued only next to an instruction without a trap and a flush of its own. -/
theorem dt_plain_of_pair (h : s.i1DecodeD i = true) : (s.dt i).Plain := by
  have hlegal := i1Decode_legalDecode h
  have hpost : (i0dp i).postsync = false := by
    by_contra hp
    rw [Bool.not_eq_false] at hp
    have halone : s.i1DecodeD i = false := alone_of_sync (Or.inr (by simp [i0Postsync, hp]))
    exact Bool.false_ne_true (halone.symm.trans h)
  have hsync : ¬((i0dp i).mret = true ∨ (i0dp i).ecall = true ∨ (i0dp i).ebreak = true ∨ (i0dp i).fenceI = true) :=
    fun hs => Bool.false_ne_true (hpost.symm.trans (i0dp_kinds.sync (i0Legal_dp hlegal) hs).1)
  rw [not_or, not_or, not_or, Bool.not_eq_true, Bool.not_eq_true, Bool.not_eq_true, Bool.not_eq_true] at hsync
  obtain ⟨hmret, hecall, hebreak, hfence⟩ := hsync
  have hicaf : i.i0.icafD = false := by
    by_contra hi
    rw [Bool.not_eq_false] at hi
    rw [i0dp_error (Or.inr hi)] at hpost
    exact Bool.false_ne_true hpost.symm
  exact ⟨hlegal, by simp [dt, hicaf], by simp [dt, hfence], by simp [dt, hlegal, itype_other ⟨hmret, hecall, hebreak⟩]⟩

/-- A branch or a jump in slot `i0` is such an instruction, and no load or store. -/
theorem dt_plain_of_branch (hlegal : s.i0LegalDecodeD i = true) (h : (i0dp i).condbr = true ∨ (i0dp i).jal = true) :
    (s.dt i).Plain ∧ (s.dd i).lsu0 = false := by
  have hdp := i0Legal_dp hlegal
  obtain ⟨hfence, hload, hstore⟩ := i0dp_kinds.branch hdp h
  have hicaf : i.i0.icafD = false := by
    by_contra hi
    rw [Bool.not_eq_false] at hi
    rw [i0dp_error (Or.inr hi)] at h
    exact absurd h (by simp [DecPkt.error])
  have hitype : (i0dp i).itype = .other := by
    unfold DecPkt.itype
    rw [if_pos]
    rw [Bool.or_eq_true]
    exact h.symm
  refine ⟨⟨hlegal, by simp [dt, hicaf], by simp [dt, hfence], by simp [dt, hlegal, hitype]⟩, ?_⟩
  rw [dd_lsu0, i0dp_wf.lsu hdp, hload, hstore]
  simp

/-- An instruction with an inconsistent prediction neither synchronises nor accesses the memory. -/
theorem dt_of_brError (h : i.i0.brErrorAll i.leak1Mode = true) :
    (s.dt i).fenceI = false ∧ (s.dt i).itype ≠ .mret ∧ (s.dd i).lsu0 = false := by
  have hdp := i0dp_error (Or.inl h)
  have hitype : (i0dp i).itype = .other := by
    rw [hdp]
    rfl
  refine ⟨by simp [dt, hdp, DecPkt.error], ?_, by rw [dd_lsu0, hdp]; simp [DecPkt.error]⟩
  cases hl : s.i0LegalDecodeD i <;> simp [dt, hl, hitype]

/-- An instruction that synchronises has no trap of its own and accesses no memory. -/
theorem dt_sync (h : (s.dt i).fenceI = true ∨ (s.dt i).itype = .mret) : (s.dt i).legal = true ∧
    (s.dt i).icaf = false ∧ (s.dd i).lsu0 = false ∧ (s.dt i).itype ≠ .ebreak ∧ (s.dt i).itype ≠ .ecall ∧
    ((s.dt i).fenceI = false ∨ (s.dt i).itype ≠ .mret) := by
  have hlegal : s.i0LegalDecodeD i = true := by
    by_contra hl
    rw [Bool.not_eq_true] at hl
    simp [dt, hl] at h
  have hdp := i0Legal_dp hlegal
  have hitype : (s.dt i).itype = (i0dp i).itype := by simp [dt, hlegal]
  have hfence : (s.dt i).fenceI = (i0dp i).fenceI := by simp [dt, hlegal]
  rw [hitype, hfence] at h ⊢
  have hkind : (i0dp i).mret = true ∨ (i0dp i).ecall = true ∨ (i0dp i).ebreak = true ∨ (i0dp i).fenceI = true := by
    rcases h with hf | hm
    · exact Or.inr (Or.inr (Or.inr hf))
    · rcases of_itype (by rw [hm]; decide) with h | h | h
      · exact Or.inl h
      · exact Or.inr (Or.inl h)
      · exact Or.inr (Or.inr (Or.inl h))
  obtain ⟨-, hload, hstore⟩ := i0dp_kinds.sync hdp hkind
  have hicaf : i.i0.icafD = false := by
    by_contra hi
    rw [Bool.not_eq_false] at hi
    rw [i0dp_error (Or.inr hi)] at hkind
    exact absurd hkind (by simp [DecPkt.error])
  refine ⟨hlegal, by simp [dt, hicaf], by rw [dd_lsu0, i0dp_wf.lsu hdp, hload, hstore]; simp, ?_⟩
  rcases h with hf | hm
  · rw [itype_other (i0dp_kinds.fence hdp hf)]
    exact ⟨by decide, by decide, Or.inr (by decide)⟩
  · rw [hm]
    refine ⟨by decide, by decide, Or.inl ?_⟩
    by_contra hf
    rw [Bool.not_eq_false] at hf
    rw [itype_other (i0dp_kinds.fence hdp hf)] at hm
    cases hm

/-- A load or store in slot `i0` is legal, has been fetched, has a consistent prediction and is no branch. -/
theorem dt_of_lsu0 (h : (s.dd i).lsu0 = true) : (s.dt i).legal = true ∧ (s.dt i).icaf = false ∧
    i.i0.brErrorAll i.leak1Mode = false ∧ ¬((i0dp i).condbr = true ∨ (i0dp i).jal = true) := by
  have hlsu := h
  rw [dd_lsu0, Bool.and_eq_true] at hlsu
  refine ⟨hlsu.1, ?_, ?_, fun hb => ?_⟩
  · rw [← Bool.not_eq_true]
    intro hicaf
    have hdp := i0dp_error (i := i) (Or.inr (Bool.and_eq_true_iff.mp hicaf).1)
    rw [hdp] at hlsu
    exact Bool.false_ne_true hlsu.2
  · rw [← Bool.not_eq_true]
    exact fun he => Bool.false_ne_true ((dt_of_brError he).2.2.symm.trans h)
  · exact Bool.false_ne_true ((dt_plain_of_branch hlsu.1 hb).2.symm.trans h)

/-- A branch, a jump or an instruction with an inconsistent prediction in slot `i1` is no load or store. -/
theorem dd_lsu1_of_branch (h : s.i1DecodeD i = true)
    (hb : (i1dp i).condbr = true ∨ (i1dp i).jal = true ∨ i.i1.brErrorAll false = true) : (s.dd i).lsu1 = false := by
  have hdp := (i1Decode_dp h).1
  rw [dd_lsu1]
  rcases or_assoc.mpr hb with hb | he
  · obtain ⟨-, hload, hstore⟩ := i1dp_kinds.branch hdp hb
    rw [i1dp_wf.lsu hdp, hload, hstore]
    simp
  · rw [i1dp_error he]
    simp [DecPkt.error]

/-- Behind a jump the predictor cannot follow slot `i1` is empty. -/
theorem i1Decode_of_jal (h : i.i0.jal (i0dp i) = true) : s.i1DecodeD i = false := by
  by_contra hd
  rw [Bool.not_eq_false] at hd
  have hb := (i1Decode_dp hd).2
  simp [i1BlockD, h] at hb

end Dec

/-! ## Targets -/

/-- An ALU takes a comparison that holds or a jump. -/
theorem Alu.of_actualTaken {a : Alu} {ap : AluPkt} (h : a.actualTaken ap = true) :
    (ap.beq = true ∨ ap.bne = true ∨ ap.blt = true ∨ ap.bge = true) ∨
      ap.jal = true ∨ a.ppFf.pcall = true ∨ a.ppFf.pja = true ∨ a.ppFf.pret = true := by
  simp only [Alu.actualTaken, Alu.anyJal, Bool.or_eq_true, Bool.and_eq_true] at h
  tauto

/-- What E4 reports as taken to a misaligned target is a comparison or a jump. -/
theorem ExuSlot.InE4.of_instMisalignedE4 {e : ExuSlot} {d l i : ExuSlotIn} {sec : Bool} (h : e.InE4 d l sec)
    (hm : e.instMisalignedE4 i = true) :
    (d.ap.beq = true ∨ d.ap.bne = true ∨ d.ap.blt = true ∨ d.ap.bge = true) ∨
      d.ap.jal = true ∨ d.predictP.pcall = true ∨ d.predictP.pja = true ∨ d.predictP.pret = true := by
  have hpp : e.aluE4.ppFf.pcall = d.predictP.pcall ∧ e.aluE4.ppFf.pja = d.predictP.pja ∧
      e.aluE4.ppFf.pret = d.predictP.pret := by
    rw [h.pp]
    exact ⟨rfl, rfl, rfl⟩
  unfold ExuSlot.instMisalignedE4 at hm
  rw [Bool.or_eq_true, h.decode, h.ap] at hm
  rcases hm with hm | hm
  · cases sec with
    | true =>
      rw [if_pos rfl] at hm
      simp only [Alu.targetMisaligned, Bool.and_eq_true] at hm
      have hwhy := Alu.of_actualTaken hm.1.1.1.2
      rwa [hpp.1, hpp.2.1, hpp.2.2] at hwhy
    | false =>
      rw [if_neg Bool.false_ne_true, h.misaligned] at hm
      simp only [Alu.targetMisaligned, Bool.and_eq_true] at hm
      exact Alu.of_actualTaken hm.1.1.1.2
  · simp only [ExuSlot.targetMisalignedE4Recheck, ExuSlot.takenControlE4, ExuSlot.predictPE4, Alu.predictPFf, h.ap,
      hpp.1, hpp.2.1, hpp.2.2, Bool.and_eq_true, Bool.or_eq_true] at hm
    tauto

/-! ## The registers of E4 -/

namespace Cpu

open Dec DestPkt

variable {s : Cpu} {i : CpuIn}

/-- The registers of the execution unit, the load/store unit and the trap unit that belong to E4 go with its packet: an
instruction to be resolved there is valid, a fault is that of the access there, and a frozen pipeline leaves E4 empty,
whatever faults meanwhile. -/
structure Together (s : Cpu) : Prop where
  second1 : s.dec.e1d.i1secondary = true → s.dec.e1d.i1valid = true
  second2 : s.dec.e2d.i1secondary = true → s.dec.e2d.i1valid = true
  second3 : s.dec.e3d.i1secondary = true → s.dec.e3d.i1valid = true
  late0 : s.exu.i0.aluE4.validFf = true → s.dec.e4d.i0valid = true
  late1 : s.exu.i1.aluE4.validFf = true → s.dec.e4d.i1valid = true
  frozen : s.tlu.lsuFreezeE4 = true → s.dec.e4d.live = false
  blocked : s.tlu.lsuBlockInterruptsE4 = true → s.tlu.lsuFreezeE4 = true
  fault : s.tlu.lsuErrorPktDc4.excValid = true → s.tlu.lsuFreezeE4 = true ∨
    (s.lsu.lsc.pktDc4.valid = true ∧ s.lsu.lsc.i0ValidDc4 = !s.tlu.lsuErrorPktDc4.instPipe)

theorem together_reset (m : DccmMem) : Together { mem := m } :=
  ⟨nofun, nofun, nofun, nofun, nofun, nofun, nofun, nofun⟩

theorem kill_second {d : DestPkt} {k0 k1 : Bool} (h : d.i1secondary = true → d.i1valid = true)
    (hs : (d.kill k0 k1).i1secondary = true) : (d.kill k0 k1).i1valid = true := by
  simp only [DestPkt.kill, Bool.and_eq_true] at hs ⊢
  exact ⟨h hs.1, hs.2⟩

/-- A cycle keeps the registers of E4 with its packet. -/
theorem Together.next (h : Together s) (hs : Aligned s) : Together (s.next i) := by
  have hcases : ∀ {en : Bool} {d d' : DestPkt}, (d.i1secondary = true → d.i1valid = true) →
      (d'.i1secondary = true → d'.i1valid = true) →
      (rvdffs en d d').i1secondary = true → (rvdffs en d d').i1valid = true := by
    intro en d d' hd hd'
    cases en
    · exact hd'
    · exact hd
  have he4 := next_e4d (i := s.decIn i) hs.gated
  refine ⟨hcases (fun hd => ?_) h.second1, hcases (kill_second h.second1) h.second2,
    hcases (kill_second h.second2) h.second3, fun hv => ?_, fun hv => ?_, fun hf => ?_, fun hb => ?_, fun hx => ?_⟩
  · simp only [dd, Bool.and_eq_true] at hd
    exact hd.2
  · have hvalid : (s.next i).exu.i0.aluE4.validFf =
        ((s.dec.e3d.i0secondary && !s.flushLowerWb && !s.freeze i) && !s.flushLowerWb) := rfl
    rw [hvalid] at hv
    simp only [Bool.and_eq_true, Bool.not_eq_true'] at hv
    rw [next_dec, he4.valid_eq.1, e3dIn, decIn_freeze, hv.1.2, if_neg Bool.false_ne_true, kill_i0valid,
      decIn_flushLowerWb, hv.2, hs.wf.e3.i0secondary hv.1.1.1]
    rfl
  · have hvalid : (s.next i).exu.i1.aluE4.validFf =
        ((s.dec.e3d.i1secondary && !s.dec.i0FlushFinalE3 && !s.flushLowerWb && !s.freeze i) && !s.flushLowerWb) := rfl
    rw [hvalid] at hv
    simp only [Bool.and_eq_true, Bool.not_eq_true'] at hv
    rw [next_dec, he4.valid_eq.2, e3dIn, decIn_freeze, hv.1.2, if_neg Bool.false_ne_true, kill_i1valid,
      decIn_flushLowerWb, hv.2, hv.1.1.1.2, h.second3 hv.1.1.1.1]
    rfl
  · have hfz : s.freeze i = true := hf
    rw [next_dec, he4.live_eq, e3dIn, decIn_freeze, hfz, if_pos rfl]
    rfl
  · have hblock : ((s.freeze i && s.lsu.lsc.isSideeffectsDc3) && !s.flushLowerWb) = true := hb
    simp only [Bool.and_eq_true] at hblock
    exact hblock.1.1
  · have hpkt : (s.next i).tlu.lsuErrorPktDc4 =
        rvdffs ((s.lsuErrorPktDc3 i).excValid || s.tlu.lsuErrorPktDc4.excValid || (s.tluIn i).clkOverride)
          (s.lsuErrorPktDc3 i) s.tlu.lsuErrorPktDc4 := rfl
    have heq : (s.next i).tlu.lsuErrorPktDc4 = s.lsuErrorPktDc3 i := by
      rw [hpkt] at hx ⊢
      cases hen : (s.lsuErrorPktDc3 i).excValid || s.tlu.lsuErrorPktDc4.excValid || (s.tluIn i).clkOverride with
      | true => rfl
      | false =>
        rw [hen] at hx
        simp only [Bool.or_eq_false_iff] at hen
        exact absurd (hen.1.2.symm.trans hx) Bool.false_ne_true
    rw [heq] at hx ⊢
    cases hfz : s.freeze i with
    | true => exact Or.inl hfz
    | false =>
      refine Or.inr ?_
      unfold lsuErrorPktDc3 at hx
      simp only [Bool.and_eq_true, Bool.not_eq_true'] at hx
      have hm := Lsc.moves_dc4 (s := s.lsu.lsc) (i := s.lsu.lscIn (s.lsuIn i))
      rw [LsuBus.lscIn_flush, LsuBus.lscIn_freeze, freezeDc3_lsuIn, lsuIn_flush, hfz, Bool.or_false] at hm
      have hv : (s.next i).lsu.lsc.pktDc4.valid = true := by
        have hvalid := hm.valid
        rw [hx.1.2, hx.2] at hvalid
        exact hvalid
      refine ⟨hv, ?_⟩
      have hslot : (s.next i).lsu.lsc.i0ValidDc4 = s.lsu.lsc.i0ValidDc3 := (hm.same hv).2
      rw [hslot, lsuErrorPktDc3, Bool.not_not]

/-- In every state of a run the registers of E4 go with its packet. -/
theorem together_run (m : DccmMem) (w : Nat → CpuIn) (n : Nat) : Together ((machine m).run w n) := by
  induction n with
  | zero => exact together_reset m
  | succ n ih => exact ih.next (aligned_run m w n)

/-- A fault of slot `i0` is that of the access in E4, unless the pipeline was frozen and E4 is empty. -/
theorem Together.fault0 (h : Together s) (hs : Aligned s) (hraw : s.tlu.lsuI0ExcDc4Raw = true) :
    s.dec.e4d.live = false ∨ s.dec.e4d.lsu0 = true := by
  unfold Tlu.lsuI0ExcDc4Raw at hraw
  rw [Bool.and_eq_true, Bool.not_eq_true'] at hraw
  rcases h.fault hraw.1 with hf | ⟨hv, hslot⟩
  · exact Or.inl (h.frozen hf)
  · rw [hraw.2] at hslot
    exact Or.inr ((hs.dc4.slot hv).symm.trans hslot)

@[inherit_doc Together.fault0]
theorem Together.fault1 (h : Together s) (hs : Aligned s) (hraw : s.tlu.lsuI1ExcDc4Raw = true) :
    s.dec.e4d.live = false ∨ s.dec.e4d.lsu1 = true := by
  unfold Tlu.lsuI1ExcDc4Raw at hraw
  rw [Bool.and_eq_true] at hraw
  rcases h.fault hraw.1 with hf | ⟨hv, hslot⟩
  · exact Or.inl (h.frozen hf)
  · rw [hraw.2] at hslot
    have h0 : s.dec.e4d.lsu0 = false := (hs.dc4.slot hv).symm.trans hslot
    have hvalid := hs.dc4.valid
    rw [hv, h0, Bool.false_or] at hvalid
    exact Or.inr hvalid.symm

/-! ## What E4 shows of its pair -/

section Run

variable {m : DccmMem} {w : Nat → CpuIn} {n : Nat}

/-- The branches and jumps are those that can be mispredicted. -/
theorem branch_of_ap {x : IbSlot} {dp : DecPkt} {leak1 : Bool}
    (h : (x.ap dp leak1).jal = true ∨ (x.ap dp leak1).predictT = true ∨ (x.ap dp leak1).predictNt = true ∨
      x.pret dp = true) : dp.condbr = true ∨ dp.jal = true := by
  have hbr : x.predictBr dp = true → dp.condbr = true ∨ dp.jal = true := by
    intro hp
    unfold IbSlot.predictBr IbSlot.pcall IbSlot.pja IbSlot.pret at hp
    simp only [Bool.or_eq_true, Bool.and_eq_true] at hp
    rcases hp with ((hc | hp) | hp) | hp
    · exact Or.inl hc
    · exact Or.inr hp.1
    · exact Or.inr hp.1
    · exact Or.inr hp.1
  rcases h with hj | ht | hn | hr
  · have hjal : x.jal dp = true := hj
    unfold IbSlot.jal at hjal
    simp only [Bool.and_eq_true] at hjal
    exact Or.inr hjal.1.1.1
  · simp only [IbSlot.ap, Bool.and_eq_true] at ht
    exact hbr ht.2
  · simp only [IbSlot.ap, Bool.and_eq_true] at hn
    exact hbr hn.2
  · unfold IbSlot.pret at hr
    exact Or.inr (Bool.and_eq_true_iff.mp hr).1

/-- The branches and jumps are those that can be taken. -/
theorem branch_of_takes {x : IbSlot} {dp : DecPkt} {leak1 : Bool}
    (hcmp : dp.beq = true ∨ dp.bne = true ∨ dp.blt = true ∨ dp.bge = true → dp.condbr = true)
    (h : ((x.ap dp leak1).beq = true ∨ (x.ap dp leak1).bne = true ∨ (x.ap dp leak1).blt = true ∨
        (x.ap dp leak1).bge = true) ∨
      (x.ap dp leak1).jal = true ∨ x.pcall dp = true ∨ x.pja dp = true ∨ x.pret dp = true) :
    dp.condbr = true ∨ dp.jal = true := by
  rcases h with hb | hj | hc | ha | hr
  · exact Or.inl (hcmp hb)
  · have hjal : x.jal dp = true := hj
    unfold IbSlot.jal at hjal
    simp only [Bool.and_eq_true] at hjal
    exact Or.inr hjal.1.1.1
  · exact Or.inr (Bool.and_eq_true_iff.mp hc).1
  · exact Or.inr (Bool.and_eq_true_iff.mp ha).1
  · exact Or.inr (Bool.and_eq_true_iff.mp hr).1

/-- What the ALU of E4 flushes for. -/
theorem of_flushLowerE4 {e : ExuSlot} {j : ExuSlotIn} (h : e.flushLowerE4 j = true) :
    e.aluE4.validFf = true ∧ j.flushLower = false ∧
      (e.apE4.jal = true ∨ (e.predictPE4 j).misp = true) ∧
      (e.apE4.jal = true ∨ e.apE4.predictT = true ∨ e.apE4.predictNt = true ∨ e.aluE4.ppFf.pret = true) := by
  simp only [ExuSlot.flushLowerE4, Alu.flushUpper, Bool.and_eq_true, Bool.not_eq_true', Bool.or_eq_true] at h
  obtain ⟨⟨⟨hwhy, hv⟩, hf⟩, -⟩ := h
  have hfl : j.flushLower = false := hf
  refine ⟨hv, hfl, ?_, ?_⟩
  · rcases hwhy with (hj | hc) | ht
    · exact Or.inl hj
    · exact Or.inr (by simp [ExuSlot.predictPE4, Alu.predictPFf, ExuSlot.aluE4In, hv, hc, hfl])
    · exact Or.inr (by simp [ExuSlot.predictPE4, Alu.predictPFf, ExuSlot.aluE4In, hv, ht, hfl])
  · rcases hwhy with (hj | hc) | ht
    · exact Or.inl hj
    · simp only [Alu.condMispredict, Bool.or_eq_true, Bool.and_eq_true] at hc
      rcases hc with hc | hc
      · exact Or.inr (Or.inl hc.1)
      · exact Or.inr (Or.inr (Or.inl hc.1))
    · simp only [Alu.targetMispredict, Bool.and_eq_true] at ht
      exact Or.inr (Or.inr (Or.inr ht.1))

/-- The instruction in E4 of slot `i0` that flushes is a branch or a jump that was decoded legally. -/
theorem branch0_run (h : ((machine m).run w n).exu.i0.flushLowerE4 (portsOf m w .i0 n) = true) :
    ((machine m).run w ((machine m).run w n).dec.e4d.seq).dec.i0LegalDecodeD
        (decPorts m w ((machine m).run w n).dec.e4d.seq) = true ∧
      ((i0dp (decPorts m w ((machine m).run w n).dec.e4d.seq)).condbr = true ∨
        (i0dp (decPorts m w ((machine m).run w n).dec.e4d.seq)).jal = true) ∧
      (((machine m).run w n).exu.i0.apE4.jal = true → (decPorts m w ((machine m).run w n).dec.e4d.seq).i0.jal
        (i0dp (decPorts m w ((machine m).run w n).dec.e4d.seq)) = true) := by
  obtain ⟨hv, -, -, hwhy⟩ := of_flushLowerE4 h
  obtain ⟨-, hin⟩ := inE4_i0_run m w n ((together_run m w n).late0 hv)
  generalize ((machine m).run w n).dec.e4d.seq = t at hin ⊢
  have hlate : lateOf m w .i0 t = true := by
    by_contra hl
    rw [Bool.not_eq_true] at hl
    exact Bool.false_ne_true ((hin.early hl).symm.trans hv)
  have hpret : ((machine m).run w n).exu.i0.aluE4.ppFf.pret =
      (decPorts m w t).i0.pret (i0dp (decPorts m w t)) := by
    rw [hin.pp]
    rfl
  rw [hin.ap, hpret] at hwhy
  refine ⟨(Bool.and_eq_true_iff.mp hlate).2, branch_of_ap hwhy, fun hj => ?_⟩
  rw [hin.ap] at hj
  exact hj

/-- The same of slot `i1`. -/
theorem branch1_run (h : ((machine m).run w n).exu.i1.flushLowerE4 (portsOf m w .i1 n) = true) :
    ((machine m).run w ((machine m).run w n).dec.e4d.seq).dec.i1DecodeD
        (decPorts m w ((machine m).run w n).dec.e4d.seq) = true ∧
      ((i1dp (decPorts m w ((machine m).run w n).dec.e4d.seq)).condbr = true ∨
        (i1dp (decPorts m w ((machine m).run w n).dec.e4d.seq)).jal = true) := by
  obtain ⟨hv, -, -, hwhy⟩ := of_flushLowerE4 h
  obtain ⟨-, hin⟩ := inE4_i1_run m w n ((together_run m w n).late1 hv)
  generalize ((machine m).run w n).dec.e4d.seq = t at hin ⊢
  have hlate : lateOf m w .i1 t = true := by
    by_contra hl
    rw [Bool.not_eq_true] at hl
    exact Bool.false_ne_true ((hin.early hl).symm.trans hv)
  have hpret : ((machine m).run w n).exu.i1.aluE4.ppFf.pret =
      (decPorts m w t).i1.pret (i1dp (decPorts m w t)) := by
    rw [hin.pp]
    rfl
  rw [hin.ap, hpret] at hwhy
  exact ⟨(Bool.and_eq_true_iff.mp hlate).2, branch_of_ap hwhy⟩

/-- A prediction that E4 finds inconsistent was so in decode. -/
theorem brError0_run (hv : ((machine m).run w n).dec.e4d.i0valid = true)
    (h : ((((machine m).run w n).tluIn (w n)).i0BrErrorE4 || (((machine m).run w n).tluIn (w n)).i0BrStartErrorE4) =
      true) : (decPorts m w ((machine m).run w n).dec.e4d.seq).i0.brErrorAll
        (decPorts m w ((machine m).run w n).dec.e4d.seq).leak1Mode = true := by
  obtain ⟨-, hin⟩ := inE4_i0_run m w n hv
  have hpp : ((((machine m).run w n).exu.i0.aluE4.ppFf.brError) ||
      ((machine m).run w n).exu.i0.aluE4.ppFf.brStartError) = true := h
  generalize ((machine m).run w n).dec.e4d.seq = t at hin ⊢
  rw [hin.pp] at hpp
  have hboth : (((decPorts m w t).i0.brError (decPorts m w t).leak1Mode && ((machine m).run w t).dec.i0LegalDecodeD
        (decPorts m w t) && !(decPorts m w t).leak1Mode) ||
      ((decPorts m w t).i0.brp.brStartError && ((machine m).run w t).dec.i0LegalDecodeD (decPorts m w t) &&
        !(decPorts m w t).leak1Mode)) = true := hpp
  simp only [Bool.or_eq_true, Bool.and_eq_true, Bool.not_eq_true'] at hboth
  simp only [IbSlot.brErrorAll, Bool.and_eq_true, Bool.or_eq_true, Bool.not_eq_true']
  rcases hboth with ⟨⟨he, -⟩, hl⟩ | ⟨⟨he, -⟩, hl⟩
  · exact ⟨Or.inl he, hl⟩
  · exact ⟨Or.inr he, hl⟩

@[inherit_doc brError0_run]
theorem brError1_run (hv : ((machine m).run w n).dec.e4d.i1valid = true)
    (h : ((((machine m).run w n).tluIn (w n)).i1BrErrorE4 || (((machine m).run w n).tluIn (w n)).i1BrStartErrorE4) =
      true) : (decPorts m w ((machine m).run w n).dec.e4d.seq).i1.brErrorAll false = true := by
  obtain ⟨-, hin⟩ := inE4_i1_run m w n hv
  have hpp : ((((machine m).run w n).exu.i1.aluE4.ppFf.brError) ||
      ((machine m).run w n).exu.i1.aluE4.ppFf.brStartError) = true := h
  generalize ((machine m).run w n).dec.e4d.seq = t at hin ⊢
  rw [hin.pp] at hpp
  have hboth : (((decPorts m w t).i1.brError false && ((machine m).run w t).dec.i1DecodeD (decPorts m w t) && !false) ||
      ((decPorts m w t).i1.brp.brStartError && ((machine m).run w t).dec.i1DecodeD (decPorts m w t) && !false)) = true :=
    hpp
  simp only [Bool.or_eq_true, Bool.and_eq_true] at hboth
  simp only [IbSlot.brErrorAll, Bool.and_eq_true, Bool.or_eq_true]
  rcases hboth with ⟨⟨he, -⟩, -⟩ | ⟨⟨he, -⟩, -⟩
  · exact ⟨Or.inl he, rfl⟩
  · exact ⟨Or.inr he, rfl⟩

/-- What E4 reports as taken to a misaligned target is a branch or a jump. -/
theorem taken0_run (hv : ((machine m).run w n).dec.e4d.i0valid = true)
    (h : (((machine m).run w n).tluIn (w n)).i0InstMisalignedE4 = true) :
    (dtOf m w ((machine m).run w n).dec.e4d.seq).fenceI = false ∧
      (dtOf m w ((machine m).run w n).dec.e4d.seq).itype ≠ .mret := by
  obtain ⟨-, hin⟩ := inE4_i0_run m w n hv
  have hwhy := hin.of_instMisalignedE4 (i := portsOf m w .i0 n) h
  generalize ((machine m).run w n).dec.e4d.seq = t at hwhy ⊢
  cases hlegal : ((machine m).run w t).dec.i0LegalDecodeD (decPorts m w t) with
  | false => simp [dtOf, dt, hlegal]
  | true =>
    have hbranch := branch_of_takes (i0dp_kinds.compare (i0Legal_dp hlegal)) hwhy
    obtain ⟨hplain, -⟩ := dt_plain_of_branch hlegal hbranch
    have hitype : (dtOf m w t).itype = .other := hplain.itype
    rw [hitype]
    exact ⟨hplain.fenceI, by decide⟩

/-- In the cycle of its completion a long operation is alone, and nothing has faulted. -/
theorem of_completes_run (ha : (machine m).Respects (fun s i => s.fpu.Answers i.fpu) w)
    (hc : ((machine m).run w n).Completes (w n)) :
    (((machine m).run w n).tluIn (w n)).i1ValidE4 = false ∧
      (((machine m).run w n).tluIn (w n)).packetE4 = { legal := true } ∧
      ((machine m).run w n).tlu.lsuErrorPktDc4.excValid = false ∧
      ((machine m).run w n).tlu.lsuBlockInterruptsE4 = false := by
  obtain ⟨hwork, -⟩ := of_completes (aligned_run m w n).toSound (ha n) hc
  have hquiet := quiet_run ha n
  refine ⟨?_, ?_, hquiet.noError hwork, hquiet.noBlock hwork⟩
  · have heq : (((machine m).run w n).tluIn (w n)).i1ValidE4 =
        (((machine m).run w n).dec.e4d.i1valid && !((machine m).run w n).flushLowerWb) := rfl
    rw [heq]
    cases hl : ((machine m).run w n).dec.e4d.live with
    | true => rw [((hwork.only (alone_run ha n)).e4 hl).2, Bool.false_and]
    | false => rw [(valid_of_not_live hl).2, Bool.false_and]
  · have hdone : ((((machine m).run w n).decIn (w n)).exuDivFinish ||
        (((machine m).run w n).decIn (w n)).fpuRespValid) = true := Bool.or_eq_true_iff.mpr hc
    have heq : (((machine m).run w n).tluIn (w n)).packetE4 =
        ((machine m).run w n).dec.tluPacketE4 (((machine m).run w n).decIn (w n)) := rfl
    rw [heq, tluPacketE4, if_pos hdone]

/-- Otherwise E4 shows the trap packet that was decoded with its pair. -/
theorem packetE4_run (hc : ¬((machine m).run w n).Completes (w n))
    (hl : ((machine m).run w n).dec.e4d.live = true) :
    (((machine m).run w n).tluIn (w n)).packetE4 = dtOf m w ((machine m).run w n).dec.e4d.seq := by
  have hdone : ((((machine m).run w n).decIn (w n)).exuDivFinish ||
      (((machine m).run w n).decIn (w n)).fpuRespValid) = false := by
    rw [← Bool.not_eq_true, Bool.or_eq_true]
    exact hc
  have heq : (((machine m).run w n).tluIn (w n)).packetE4 =
      ((machine m).run w n).dec.tluPacketE4 (((machine m).run w n).decIn (w n)) := rfl
  rw [heq, tluPacketE4, hdone, if_neg Bool.false_ne_true]
  exact ((traced_run m w n).e4 hl).2

/-- A valid instruction in slot `i0` is the one in E4, or a long operation that completes. -/
theorem of_i0ValidE4 {s : Cpu} {i : CpuIn} (hv : (s.tluIn i).i0ValidE4 = true) :
    s.Completes i ∨ s.dec.e4d.i0valid = true := by
  have heq : (s.tluIn i).i0ValidE4 = ((s.dec.e4d.i0valid && !s.dec.e4d.i0div && !s.dec.e4d.i0fpu && !s.flushLowerWb) ||
    s.divFinish i || s.fpuRespValid i) := rfl
  rw [heq] at hv
  simp only [Bool.or_eq_true, Bool.and_eq_true] at hv
  rcases hv with (hv | hd) | hr
  · exact Or.inr hv.1.1.1
  · exact Or.inl (Or.inl hd)
  · exact Or.inl (Or.inr hr)

/-- The access of slot `i0` in E4 was issued by decode. -/
theorem lsu0_run (hl : ((machine m).run w n).dec.e4d.lsu0 = true) :
    (ddOf m w ((machine m).run w n).dec.e4d.seq).lsu0 = true := by
  obtain ⟨⟨k, heq⟩, -⟩ := (traced_run m w n).e4 (live_of_lsu0 hl)
  rw [heq, kill_lsu0, Bool.and_eq_true] at hl
  exact hl.1

@[inherit_doc lsu0_run]
theorem lsu1_run (hl : ((machine m).run w n).dec.e4d.lsu1 = true) :
    (ddOf m w ((machine m).run w n).dec.e4d.seq).lsu1 = true := by
  obtain ⟨⟨k, heq⟩, -⟩ := (traced_run m w n).e4 (live_of_lsu1 hl)
  rw [heq, kill_lsu1, Bool.and_eq_true] at hl
  exact hl.1

/-- The instruction of slot `i1` in E4 was issued by decode. -/
theorem i1valid_run (hv : ((machine m).run w n).dec.e4d.i1valid = true) :
    ((machine m).run w ((machine m).run w n).dec.e4d.seq).dec.i1DecodeD
      (decPorts m w ((machine m).run w n).dec.e4d.seq) = true := by
  obtain ⟨⟨k, heq⟩, -⟩ := (traced_run m w n).e4 (live_of_i1valid hv)
  rw [heq, kill_i1valid, Bool.and_eq_true] at hv
  exact hv.1

/-- A valid instruction of slot `i0` that decode did not issue as an access has not faulted. -/
theorem no_fault0_run (hv : ((machine m).run w n).dec.e4d.i0valid = true)
    (hno : (ddOf m w ((machine m).run w n).dec.e4d.seq).lsu0 = false) :
    ((machine m).run w n).tlu.lsuI0ExcDc4Raw = false := by
  rw [← Bool.not_eq_true]
  intro hraw
  rcases (together_run m w n).fault0 (aligned_run m w n) hraw with hl | hl
  · exact Bool.false_ne_true ((valid_of_not_live hl).1.symm.trans hv)
  · exact Bool.false_ne_true (hno.symm.trans (lsu0_run hl))

@[inherit_doc no_fault0_run]
theorem no_fault1_run (hv : ((machine m).run w n).dec.e4d.i1valid = true)
    (hno : (ddOf m w ((machine m).run w n).dec.e4d.seq).lsu1 = false) :
    ((machine m).run w n).tlu.lsuI1ExcDc4Raw = false := by
  rw [← Bool.not_eq_true]
  intro hraw
  rcases (together_run m w n).fault1 (aligned_run m w n) hraw with hl | hl
  · exact Bool.false_ne_true ((valid_of_not_live hl).2.symm.trans hv)
  · exact Bool.false_ne_true (hno.symm.trans (lsu1_run hl))

/-- A misprediction in slot `i0` is that of a valid branch, and of one that is alone in its pair if it is a jump the
predictor cannot follow. -/
theorem branch0_cause (ha : (machine m).Respects (fun s i => s.fpu.Answers i.fpu) w)
    (h : (((machine m).run w n).tluIn (w n)).i0FlushLowerE4 = true) :
    (((machine m).run w n).tluIn (w n)).i0ValidE4 = true ∧ (((machine m).run w n).tluIn (w n)).packetE4.Plain ∧
      ((((machine m).run w n).tluIn (w n)).i0BrErrorE4 || (((machine m).run w n).tluIn (w n)).i0BrStartErrorE4) =
        false ∧
      ((machine m).run w n).tlu.lsuI0ExcDc4Raw = false ∧
      ((((machine m).run w n).tluIn (w n)).i0BrMpE4 = true ∨
        (((machine m).run w n).tluIn (w n)).i1ValidE4 = false) := by
  obtain ⟨hvalid, hfl, hmp, -⟩ := of_flushLowerE4 (e := ((machine m).run w n).exu.i0) (j := portsOf m w .i0 n) h
  obtain ⟨hlegal, hb, hjal⟩ := branch0_run h
  have hv := (together_run m w n).late0 hvalid
  have hl := live_of_i0valid hv
  obtain ⟨hplain, hno⟩ := dt_plain_of_branch hlegal hb
  refine ⟨?_, ?_, ?_, no_fault0_run hv hno, ?_⟩
  · have heq : (((machine m).run w n).tluIn (w n)).i0ValidE4 =
        ((((machine m).run w n).dec.e4d.i0valid && !((machine m).run w n).dec.e4d.i0div &&
          !((machine m).run w n).dec.e4d.i0fpu && !((machine m).run w n).flushLowerWb) ||
          ((machine m).run w n).divFinish (w n) || ((machine m).run w n).fpuRespValid (w n)) := rfl
    have hflush : ((machine m).run w n).flushLowerWb = false := hfl
    obtain ⟨⟨k, hd⟩, -⟩ := (traced_run m w n).e4 hl
    generalize ((machine m).run w n).dec.e4d.seq = t at hlegal hb hd
    have hdp := i0Legal_dp hlegal
    have hdiv : ((machine m).run w n).dec.e4d.i0div = false := by
      have hbit : ((machine m).run w n).dec.e4d.i0div = ((i0dp (decPorts m w t)).div &&
        ((machine m).run w t).dec.i0LegalDecodeD (decPorts m w t)) := congrArg DestPkt.i0div hd
      rw [hbit, Bool.and_eq_false_iff]
      refine Or.inl ?_
      rw [← Bool.not_eq_true]
      intro hdiv
      obtain ⟨-, -, -, -, hnj, hnc⟩ := i0dp_wf.div hdp hdiv
      rcases hb with hb | hb
      · exact Bool.false_ne_true (hnc.symm.trans hb)
      · exact Bool.false_ne_true (hnj.symm.trans hb)
    have hfpu : ((machine m).run w n).dec.e4d.i0fpu = false := by
      have hbit : ((machine m).run w n).dec.e4d.i0fpu = ((i0dp (decPorts m w t)).fpu &&
        ((machine m).run w t).dec.i0LegalDecodeD (decPorts m w t)) := congrArg DestPkt.i0fpu hd
      rw [hbit, Bool.and_eq_false_iff]
      refine Or.inl ?_
      rw [← Bool.not_eq_true]
      intro hfpu
      obtain ⟨-, -, -, -, hnj, hnc⟩ := i0dp_wf.fpu hfpu
      rcases hb with hb | hb
      · exact Bool.false_ne_true (hnc.symm.trans hb)
      · exact Bool.false_ne_true (hnj.symm.trans hb)
    rw [heq, hv, hdiv, hfpu, hflush]
    rfl
  · by_cases hc : ((machine m).run w n).Completes (w n)
    · rw [(of_completes_run ha hc).2.1]
      exact ⟨rfl, rfl, rfl, rfl⟩
    · rw [packetE4_run hc hl]
      exact hplain
  · rw [← Bool.not_eq_true]
    intro herr
    rw [i0dp_error (Or.inl (brError0_run hv herr))] at hb
    exact absurd hb (by simp [DecPkt.error])
  · rcases hmp with hj | hmp
    · refine Or.inr ?_
      rw [← Bool.not_eq_true]
      intro hv1
      exact Bool.false_ne_true
        ((i1Decode_of_jal (hjal hj)).symm.trans (i1valid_run (Bool.and_eq_true_iff.mp hv1).1))
    · exact Or.inl hmp

/-- A misprediction in slot `i1` is that of a valid branch. -/
theorem branch1_cause (h : (((machine m).run w n).tluIn (w n)).i1FlushLowerE4 = true) :
    (((machine m).run w n).tluIn (w n)).i1ValidE4 = true ∧
      ((((machine m).run w n).tluIn (w n)).i1BrErrorE4 || (((machine m).run w n).tluIn (w n)).i1BrStartErrorE4) =
        false ∧
      ((machine m).run w n).tlu.lsuI1ExcDc4Raw = false := by
  obtain ⟨hvalid, hfl, -, -⟩ := of_flushLowerE4 (e := ((machine m).run w n).exu.i1) (j := portsOf m w .i1 n) h
  obtain ⟨hdec, hb⟩ := branch1_run h
  have hv := (together_run m w n).late1 hvalid
  refine ⟨?_, ?_, no_fault1_run hv (dd_lsu1_of_branch hdec (or_assoc.mp (Or.inl hb)))⟩
  · have heq : (((machine m).run w n).tluIn (w n)).i1ValidE4 =
        (((machine m).run w n).dec.e4d.i1valid && !((machine m).run w n).flushLowerWb) := rfl
    have hflush : ((machine m).run w n).flushLowerWb = false := hfl
    rw [heq, hv, hflush]
    rfl
  · rw [← Bool.not_eq_true]
    intro herr
    rw [i1dp_error (brError1_run hv herr)] at hb
    exact absurd hb (by simp [DecPkt.error])

/-- In every run E4 has one cause at a time. -/
theorem oneCause_run (ha : (machine m).Respects (fun s i => s.fpu.Answers i.fpu) w) :
    ((machine m).run w n).tlu.OneCause (((machine m).run w n).tluIn (w n)) := by
  have htog := together_run m w n
  have hraw0 : ((machine m).run w n).tlu.lsuErrorPktDc4.excValid = false →
      ((machine m).run w n).tlu.lsuI0ExcDc4Raw = false := by
    intro h
    rw [Tlu.lsuI0ExcDc4Raw, h, Bool.false_and]
  have hraw1 : ((machine m).run w n).tlu.lsuErrorPktDc4.excValid = false →
      ((machine m).run w n).tlu.lsuI1ExcDc4Raw = false := by
    intro h
    rw [Tlu.lsuI1ExcDc4Raw, h, Bool.false_and]
  have hi1 : (((machine m).run w n).tluIn (w n)).i1ValidE4 = true →
      ((machine m).run w n).dec.e4d.i1valid = true := fun h => (Bool.and_eq_true_iff.mp h).1
  constructor
  · intro hb
    have hl := htog.frozen (htog.blocked hb)
    refine ⟨?_, ?_⟩
    · rw [← Bool.not_eq_true]
      intro hv
      rcases of_i0ValidE4 hv with hc | hv
      · exact Bool.false_ne_true ((of_completes_run ha hc).2.2.2.symm.trans hb)
      · exact Bool.false_ne_true ((valid_of_not_live hl).1.symm.trans hv)
    · rw [← Bool.not_eq_true]
      exact fun hv => Bool.false_ne_true ((valid_of_not_live hl).2.symm.trans (hi1 hv))
  · exact branch0_cause ha
  · exact branch1_cause
  · intro hv
    by_cases hc : ((machine m).run w n).Completes (w n)
    · exact absurd ((of_completes_run ha hc).1.symm.trans hv) Bool.false_ne_true
    · rw [packetE4_run hc (live_of_i1valid (hi1 hv))]
      exact dt_plain_of_pair (i1valid_run (hi1 hv))
  · intro hv herr
    by_cases hc : ((machine m).run w n).Completes (w n)
    · obtain ⟨-, hpkt, hexc, -⟩ := of_completes_run ha hc
      rw [hpkt]
      exact ⟨rfl, by decide, hraw0 hexc⟩
    · have hv0 := (of_i0ValidE4 hv).resolve_left hc
      obtain ⟨hf, hm, hno⟩ := dt_of_brError (s := ((machine m).run w ((machine m).run w n).dec.e4d.seq).dec)
        (brError0_run hv0 herr)
      rw [packetE4_run hc (live_of_i0valid hv0)]
      exact ⟨hf, hm, no_fault0_run hv0 hno⟩
  · intro hv herr
    exact no_fault1_run (hi1 hv)
      (dd_lsu1_of_branch (i1valid_run (hi1 hv)) (Or.inr (Or.inr (brError1_run (hi1 hv) herr))))
  · intro hv hm
    by_cases hc : ((machine m).run w n).Completes (w n)
    · rw [(of_completes_run ha hc).2.1]
      exact ⟨rfl, by decide⟩
    · have hv0 := (of_i0ValidE4 hv).resolve_left hc
      rw [packetE4_run hc (live_of_i0valid hv0)]
      exact taken0_run hv0 hm
  · intro hv hs
    by_cases hc : ((machine m).run w n).Completes (w n)
    · rw [(of_completes_run ha hc).2.1] at hs
      exact absurd hs (by decide)
    · have hv0 := (of_i0ValidE4 hv).resolve_left hc
      rw [packetE4_run hc (live_of_i0valid hv0)] at hs ⊢
      obtain ⟨hl, hicaf, hno, hb, he, hboth⟩ := dt_sync hs
      exact ⟨hl, hicaf, no_fault0_run hv0 hno, hb, he, hboth⟩
  · intro hraw hf
    rcases htog.fault1 (aligned_run m w n) hraw with hl | hl
    · refine Or.inr ?_
      rw [← Bool.not_eq_true]
      intro hv
      rcases of_i0ValidE4 hv with hc | hv0
      · exact Bool.false_ne_true ((hraw1 (of_completes_run ha hc).2.2.1).symm.trans hraw)
      · exact Bool.false_ne_true ((valid_of_not_live hl).1.symm.trans hv0)
    · refine Or.inl ?_
      have heq : (((machine m).run w n).tluIn (w n)).i1ValidE4 =
          (((machine m).run w n).dec.e4d.i1valid && !((machine m).run w n).flushLowerWb) := rfl
      have hfl : ((machine m).run w n).flushLowerWb = false := hf
      unfold DestPkt.lsu1 at hl
      rw [heq, (Bool.and_eq_true_iff.mp hl).1, hfl]
      rfl

/-! ## An access in E4 -/

/-- A pair that was fetched and is legal shows no trap of its own in E4, and a long operation never does. -/
theorem packetE4_plain (hl : ((machine m).run w n).dec.e4d.live = true)
    (hicaf : (dtOf m w ((machine m).run w n).dec.e4d.seq).icaf = false)
    (hlegal : (dtOf m w ((machine m).run w n).dec.e4d.seq).legal = true) :
    (((machine m).run w n).tluIn (w n)).packetE4.icaf = false ∧
      (((machine m).run w n).tluIn (w n)).packetE4.legal = true := by
  by_cases hc : ((machine m).run w n).Completes (w n)
  · have hdone : ((((machine m).run w n).decIn (w n)).exuDivFinish ||
        (((machine m).run w n).decIn (w n)).fpuRespValid) = true := Bool.or_eq_true_iff.mpr hc
    have heq : (((machine m).run w n).tluIn (w n)).packetE4 =
        ((machine m).run w n).dec.tluPacketE4 (((machine m).run w n).decIn (w n)) := rfl
    rw [heq, tluPacketE4, if_pos hdone]
    exact ⟨rfl, rfl⟩
  · rw [packetE4_run hc hl]
    exact ⟨hicaf, hlegal⟩

/-- With a live packet in E4 the pipeline was not frozen, so no frozen access is fetched again. -/
theorem freezeRfpc_of_live (hl : ((machine m).run w n).dec.e4d.live = true) :
    ((machine m).run w n).tlu.freezeRfpcE4 (((machine m).run w n).tluIn (w n)) = false := by
  have htog := together_run m w n
  have hblock : ((machine m).run w n).tlu.lsuBlockInterruptsE4 = false := by
    rw [← Bool.not_eq_true]
    exact fun hb => Bool.false_ne_true ((htog.frozen (htog.blocked hb)).symm.trans hl)
  rw [Tlu.freezeRfpcE4, hblock, Bool.false_and, Bool.false_and]

/-- An access of slot `i0` that has not faulted is killed by a trigger only. -/
theorem kill0_of_access (hl : ((machine m).run w n).dec.e4d.lsu0 = true)
    (hq : ((machine m).run w n).tlu.lsuErrorPktDc4.excValid = false) :
    ((machine m).run w n).tlu.tluI0KillWritebE4 (((machine m).run w n).tluIn (w n)) =
      ((machine m).run w n).tlu.i0TriggerHitE4 (((machine m).run w n).tluIn (w n)) := by
  have hlive := live_of_lsu0 hl
  have hv : ((machine m).run w n).dec.e4d.i0valid = true := (Bool.and_eq_true_iff.mp hl).1
  obtain ⟨hlegal, hicaf, hbr, hnb⟩ := dt_of_lsu0 (lsu0_run hl)
  have hrfpc : ((machine m).run w n).tlu.rfpcI0E4 (((machine m).run w n).tluIn (w n)) = false := by
    have herr : ((((machine m).run w n).tluIn (w n)).i0BrErrorE4 ||
        (((machine m).run w n).tluIn (w n)).i0BrStartErrorE4) = false := by
      rw [← Bool.not_eq_true]
      exact fun he => Bool.false_ne_true (hbr.symm.trans (brError0_run hv he))
    rw [Tlu.rfpcI0E4, freezeRfpc_of_live hlive, herr, Bool.and_false, Bool.false_and, Bool.false_or]
  have hexc : ((machine m).run w n).tlu.lsuI0ExcDc4 (((machine m).run w n).tluIn (w n)) = false := by
    rw [Tlu.lsuI0ExcDc4, Tlu.lsuI0ExcDc4Raw, hq, Bool.false_and, Bool.false_and, Bool.false_and]
  have hmis : (((machine m).run w n).tluIn (w n)).i0InstMisalignedE4 = false := by
    rw [← Bool.not_eq_true]
    intro ht
    obtain ⟨-, hin⟩ := inE4_i0_run m w n hv
    have hwhy := hin.of_instMisalignedE4 (i := portsOf m w .i0 n) ht
    exact hnb (branch_of_takes (i0dp_kinds.compare (i0Legal_dp hlegal)) hwhy)
  have hpacket := packetE4_plain hlive hicaf hlegal
  rw [Tlu.tluI0KillWritebE4, Tlu.instAccE4, Tlu.instMisalignedI0E4, Tlu.illegalE4, hrfpc, hexc, hmis, hpacket.1,
    hpacket.2]
  simp

/-- An access of slot `i1` that has not faulted is killed by a trigger, or by the instruction in front of it: that is
fetched again, mispredicted, or taken to a misaligned target. -/
theorem kill1_of_access (hl : ((machine m).run w n).dec.e4d.lsu1 = true)
    (hq : ((machine m).run w n).tlu.lsuErrorPktDc4.excValid = false) :
    (((machine m).run w n).tlu.tluI0KillWritebE4 (((machine m).run w n).tluIn (w n)) ||
      ((machine m).run w n).tlu.tluI1KillWritebE4 (((machine m).run w n).tluIn (w n))) =
      (((machine m).run w n).tlu.rfpcI0E4 (((machine m).run w n).tluIn (w n)) ||
        (((machine m).run w n).tluIn (w n)).i0BrMpE4 ||
        ((machine m).run w n).tlu.instMisalignedI0E4 (((machine m).run w n).tluIn (w n)) ||
        ((machine m).run w n).tlu.triggerHitE4 (((machine m).run w n).tluIn (w n))) := by
  have hlive := live_of_lsu1 hl
  have hv : ((machine m).run w n).dec.e4d.i1valid = true := (Bool.and_eq_true_iff.mp hl).1
  have hdd := lsu1_run hl
  have hdec := i1valid_run hv
  have hplain := dt_plain_of_pair hdec
  have hrfpc1 : ((machine m).run w n).tlu.rfpcI1E4 (((machine m).run w n).tluIn (w n)) = false := by
    have herr : ((((machine m).run w n).tluIn (w n)).i1BrErrorE4 ||
        (((machine m).run w n).tluIn (w n)).i1BrStartErrorE4) = false := by
      rw [← Bool.not_eq_true]
      intro he
      exact Bool.false_ne_true ((dd_lsu1_of_branch hdec (Or.inr (Or.inr (brError1_run hv he)))).symm.trans hdd)
    rw [Tlu.rfpcI1E4, herr, Bool.and_false, Bool.false_and]
  have hexc : ((machine m).run w n).tlu.lsuI0ExcDc4Raw = false ∧ ((machine m).run w n).tlu.lsuI1ExcDc4Raw = false := by
    rw [Tlu.lsuI0ExcDc4Raw, Tlu.lsuI1ExcDc4Raw, hq, Bool.false_and]
    exact ⟨rfl, rfl⟩
  have hmis : (((machine m).run w n).tluIn (w n)).i1InstMisalignedE4 = false := by
    rw [← Bool.not_eq_true]
    intro ht
    obtain ⟨-, hin⟩ := inE4_i1_run m w n hv
    have hwhy := hin.of_instMisalignedE4 (i := portsOf m w .i1 n) ht
    have hbranch := branch_of_takes (i1dp_kinds.compare (i1Decode_dp hdec).1) hwhy
    exact Bool.false_ne_true ((dd_lsu1_of_branch hdec (or_assoc.mp (Or.inl hbranch))).symm.trans hdd)
  have hpacket := packetE4_plain hlive hplain.icaf hplain.legal
  have hacc : ((machine m).run w n).tlu.instAccE4 (((machine m).run w n).tluIn (w n)) = false := by
    rw [Tlu.instAccE4, hpacket.1, Bool.false_and, Bool.false_and, Bool.false_and]
  have hill : ((machine m).run w n).tlu.illegalE4 (((machine m).run w n).tluIn (w n)) = false := by
    rw [Tlu.illegalE4, hpacket.2, Bool.not_true, Bool.false_and, Bool.false_and]
  have hmis1 : ((machine m).run w n).tlu.instMisalignedI1E4 (((machine m).run w n).tluIn (w n)) = false := by
    rw [Tlu.instMisalignedI1E4, hmis]
    simp
  have hexc0 : ((machine m).run w n).tlu.lsuI0ExcDc4 (((machine m).run w n).tluIn (w n)) = false := by
    rw [Tlu.lsuI0ExcDc4, hexc.1, Bool.false_and, Bool.false_and]
  have hexc1 : ((machine m).run w n).tlu.lsuI1ExcDc4 (((machine m).run w n).tluIn (w n)) = false := by
    rw [Tlu.lsuI1ExcDc4, hexc.2, Bool.false_and, Bool.false_and]
  rw [Tlu.tluI0KillWritebE4, Tlu.tluI1KillWritebE4, Tlu.lsuExcValidE4, Tlu.instMisalignedE4, Tlu.triggerHitE4, hrfpc1,
    hexc0, hexc1, hacc, hill, hmis1]
  generalize ((machine m).run w n).tlu.rfpcI0E4 (((machine m).run w n).tluIn (w n)) = a
  generalize ((machine m).run w n).tlu.instMisalignedI0E4 (((machine m).run w n).tluIn (w n)) = b
  generalize (((machine m).run w n).tluIn (w n)).i0BrMpE4 = c
  generalize ((machine m).run w n).tlu.i0TriggerHitE4 (((machine m).run w n).tluIn (w n)) = d
  cases a <;> cases b <;> cases c <;> cases d <;> simp

end Run

end Cpu

end SocRV
