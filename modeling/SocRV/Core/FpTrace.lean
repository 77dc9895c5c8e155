import SocRV.Core.FpState

/-!
# The instructions between decode and write-back

The packet of a pair, its instruction bits and its CSR fields stand in registers with different enables.  For a valid
instruction they belong together: `FpPkt` is what a stage shows, and every step hands a valid one on unchanged.  What
reaches write-back is the instruction of E4 or the completion of a long operation.
-/

namespace SocRV

/-! ## What the decoder tells apart -/

section Decoder

variable {inst : BitVec 32} {fpEnabled bad : Bool} {frm : BitVec 3}

/-- A floating-point load is no operation of the FPU. -/
theorem fpOp_of_fpload (h : fpload inst = true) : fpOp inst = false := by
  simp only [fpload, Bool.and_eq_true, beq_iff_eq] at h
  simp [fpOp, fpFused, h.1]

/-- A floating-point load is neither a long operation nor a CSR instruction. -/
theorem i0Dp_of_fpload (h : fpload inst = true) :
    (i0Dp inst fpEnabled frm bad).fpu = false ∧ (i0Dp inst fpEnabled frm bad).div = false ∧
      (i0Dp inst fpEnabled frm bad).csrWenUnq = false := by
  unfold i0Dp
  rw [fpOp_of_fpload h, h]
  cases bad <;> exact ⟨rfl, rfl, rfl⟩

/-- A CSR write is not a long operation and not a floating-point load. -/
theorem i0Dp_of_csrWenUnq (h : (i0Dp inst fpEnabled frm bad).csrWenUnq = true) :
    (i0Dp inst fpEnabled frm bad).fpu = false ∧ (i0Dp inst fpEnabled frm bad).div = false ∧
      fpload inst = false := by
  have hload : fpload inst = false := by
    by_contra hl
    rw [Bool.not_eq_false] at hl
    rw [(i0Dp_of_fpload hl).2.2] at h
    cases h
  have hsix : (decDecCtl inst).csrWenUnq = true → inst.getLsbD 6 = true := by
    intro hw
    by_contra h6
    rw [Bool.not_eq_true] at h6
    simp only [DecPkt.csrWenUnq, decDecCtl, h6, Bool.and_false, Bool.false_and, Bool.or_false] at hw
    cases hw
  unfold i0Dp at h ⊢
  split_ifs at h ⊢
  · exact ⟨rfl, rfl, hload⟩
  · cases h
  · cases h
  · cases h
  · refine ⟨rfl, ?_, hload⟩
    simp only [decDecCtl, hsix h, Bool.not_true, Bool.and_false, Bool.false_and]

/-- Of the system instructions without a function only those without a source register are legal. -/
theorem decLegal_system {b : Nat → Bool} (h : decLegal b = true) (h6 : b 6 = true) (h4 : b 4 = true)
    (h13 : b 13 = false) (h12 : b 12 = false) :
    b 15 = false ∧ b 16 = false ∧ b 17 = false ∧ b 18 = false ∧ b 19 = false := by
  refine ⟨?_, ?_, ?_, ?_, ?_⟩ <;>
  · by_contra hr
    simp [decLegal, h6, h4, h13, h12, hr] at h

/-- A CSR instruction that writes waits for the older ones and holds the younger, unless it only writes. -/
theorem decDecCtl_csr (h : (decDecCtl inst).legal = true) (hw : (decDecCtl inst).csrWenUnq = true) :
    (decDecCtl inst).anyCsr = true ∧
      ((decDecCtl inst).csrRead = true ∨ (decDecCtl inst).csrWrite = false →
        (decDecCtl inst).presync = true ∧ (decDecCtl inst).postsync = true) := by
  have hsys := decLegal_system (b := inst.getLsbD)
  unfold DecPkt.csrWenUnq DecPkt.anyCsr decDecCtl at *
  generalize inst.getLsbD = b at *
  dsimp only at *
  have e6 : b 6 = true := by
    by_contra e6
    simp [e6] at hw
  have e4 : b 4 = true := by
    by_contra e4
    simp [e4] at hw
  cases e13 : b 13 with
  | true =>
    simp only [e6, e4, e13, Bool.not_true, Bool.and_true, Bool.and_false, Bool.false_and, Bool.or_false, Bool.true_or,
      Bool.or_eq_true, Bool.and_eq_true] at hw ⊢
    refine ⟨trivial, fun _ => ?_⟩
    rcases hw with ((((hw | hw) | hw) | hw) | hw) | ((((hw | hw) | hw) | hw) | hw) <;> simp [hw.1]
  | false =>
    cases e12 : b 12 with
    | true =>
      simp only [e6, e4, Bool.not_true, Bool.not_false, Bool.and_true, Bool.and_false, Bool.false_and, Bool.or_false,
        Bool.or_true, Bool.false_or, Bool.or_eq_true]
      refine ⟨trivial, fun h => ?_⟩
      rcases h with ((((h | h) | h) | h) | h) | h
      · simp [h]
      · simp [h]
      · simp [h]
      · simp [h]
      · simp [h]
      · cases h
    | false =>
      obtain ⟨h15, h16, h17, h18, h19⟩ := hsys h e6 e4 e13 e12
      simp [e13, e12, h15, h16, h17, h18, h19] at hw

@[inherit_doc decDecCtl_csr]
theorem i0Dp_csr (h : (i0Dp inst fpEnabled frm bad).legal = true)
    (hw : (i0Dp inst fpEnabled frm bad).csrWenUnq = true) :
    (i0Dp inst fpEnabled frm bad).anyCsr = true ∧
      ((i0Dp inst fpEnabled frm bad).csrRead = true ∨ (i0Dp inst fpEnabled frm bad).csrWrite = false →
        (i0Dp inst fpEnabled frm bad).presync = true ∧ (i0Dp inst fpEnabled frm bad).postsync = true) := by
  unfold i0Dp at *
  split_ifs at *
  · cases hw
  · cases hw
  · cases hw
  · cases hw
  · exact decDecCtl_csr h hw

end Decoder

/-- The instruction of slot `i0` in a stage. -/
structure FpPkt where
  valid : Bool
  seq : Nat
  inst : BitVec 32
  legal : Bool
  fpu : Bool
  div : Bool
  csr : CsrPkt

namespace FpCpu

open DestPkt Dec

variable {s : FpCpu} {i : FpCpuIn} {P : FpPkt → Prop}

/-- What a stage shows of its packets and its instruction bits. -/
def pkt (d : DestPkt) (t : TrapPkt) (inst : BitVec 32) (c : CsrPkt) : FpPkt :=
  ⟨d.i0valid, d.seq, inst, t.legal, d.i0fpu, d.i0div, c⟩

/-- The instruction in E1. -/
def p1 (s : FpCpu) : FpPkt := pkt s.cpu.dec.e1d s.cpu.dec.e1t s.i0InstE1 s.csrE1

/-- The instruction in E2. -/
def p2 (s : FpCpu) : FpPkt := pkt s.cpu.dec.e2d s.cpu.dec.e2t s.i0InstE2 s.csrE2

/-- The instruction in E3. -/
def p3 (s : FpCpu) : FpPkt := pkt s.cpu.dec.e3d s.cpu.dec.e3t s.i0InstE3 s.csrE3

/-- The instruction in E4. -/
def p4 (s : FpCpu) : FpPkt := pkt s.cpu.dec.e4d s.cpu.dec.e4t s.i0InstE4 s.csrE4

/-- The instruction decode issues. -/
def issued (s : FpCpu) (i : FpCpuIn) : FpPkt :=
  pkt (s.cpu.dec.dd (s.decIn i)) (s.cpu.dec.dt (s.decIn i)) i.cpu.dec.i0.instr (s.csrDd i)

/-- Killing a valid instruction leaves it as it is. -/
theorem pkt_kill {d : DestPkt} {t : TrapPkt} {inst : BitVec 32} {c : CsrPkt} {k0 k1 : Bool}
    (h : (d.kill k0 k1).i0valid = true) : pkt (d.kill k0 k1) t inst c = pkt d t inst c := by
  rw [kill_i0valid, Bool.and_eq_true] at h
  simp [pkt, DestPkt.kill, h.1, h.2]

/-! ## Steps -/

theorem next_dec : (s.next i).cpu.dec = s.cpu.dec.next (s.decIn i) := rfl

/-- What is valid in E1 was there or was just issued. -/
theorem next_p1 (hg : Gated s.cpu.dec) (h : (s.next i).p1.valid = true) :
    (s.p1.valid = true ∧ (s.next i).p1 = s.p1) ∨ (s.i0DecodeD i = true ∧ (s.next i).p1 = s.issued i) := by
  have hreg : (s.next i).p1 = pkt (rvdffs (s.cpu.dec.i0E1CtlEn (s.decIn i)) (s.cpu.dec.dd (s.decIn i)) s.cpu.dec.e1d)
      (rvdffs (s.cpu.dec.i0E1CtlEn (s.decIn i)) (s.cpu.dec.dt (s.decIn i)) s.cpu.dec.e1t)
      (rvdffs (s.cpu.dec.i0E1DataEn (s.decIn i)) i.cpu.dec.i0.instr s.i0InstE1)
      (rvdffs (s.cpu.dec.i0E1CtlEn (s.decIn i)) (s.csrDd i) s.csrE1) := rfl
  cases hf : (s.decIn i).freeze with
  | true =>
    have hen : s.cpu.dec.i0E1CtlEn (s.decIn i) = false := by simp [i0E1CtlEn, hf]
    have hde : s.cpu.dec.i0E1DataEn (s.decIn i) = false := by simp [i0E1DataEn, hf]
    have hhold : (s.next i).p1 = s.p1 := by rw [hreg, hen, hde]; rfl
    exact Or.inl ⟨hhold ▸ h, hhold⟩
  | false =>
    have heq := (next_e1d (i := s.decIn i) hg).eq_of_live (live_of_i0valid h)
    rw [hf, if_neg (by decide)] at heq
    have hdec : s.i0DecodeD i = true := (congrArg DestPkt.i0valid heq).symm.trans h
    have hdec' : s.cpu.dec.i0DecodeD (s.decIn i) = true := hdec
    have hen : s.cpu.dec.i0E1CtlEn (s.decIn i) = true := by simp [i0E1CtlEn, hf, hdec']
    have hde : s.cpu.dec.i0E1DataEn (s.decIn i) = true := by simp [i0E1DataEn, hf, hdec']
    exact Or.inr ⟨hdec, by rw [hreg, hen, hde]; rfl⟩

theorem next_p2 (hg : Gated s.cpu.dec) (h : (s.next i).p2.valid = true) :
    (s.p2.valid = true ∧ (s.next i).p2 = s.p2) ∨ (s.p1.valid = true ∧ (s.next i).p2 = s.p1) := by
  have hreg : (s.next i).p2 = pkt (rvdffs (s.cpu.dec.i0E2CtlEn (s.decIn i)) s.cpu.dec.e1dIn s.cpu.dec.e2d)
      (rvdffs (s.cpu.dec.i0E2CtlEn (s.decIn i)) s.cpu.dec.e1t s.cpu.dec.e2t)
      (rvdffs (s.cpu.dec.i0E2DataEn (s.decIn i)) s.i0InstE1 s.i0InstE2)
      (rvdffs (s.cpu.dec.i0E2CtlEn (s.decIn i)) s.csrE1 s.csrE2) := rfl
  cases hf : (s.decIn i).freeze with
  | true =>
    have hen : s.cpu.dec.i0E2CtlEn (s.decIn i) = false := by simp [i0E2CtlEn, hf]
    have hde : s.cpu.dec.i0E2DataEn (s.decIn i) = false := by simp [i0E2DataEn, hf]
    have hhold : (s.next i).p2 = s.p2 := by rw [hreg, hen, hde]; rfl
    exact Or.inl ⟨hhold ▸ h, hhold⟩
  | false =>
    have heq := (next_e2d (i := s.decIn i) hg).eq_of_live (live_of_i0valid h)
    rw [hf, if_neg (by decide)] at heq
    have hv : s.cpu.dec.e1dIn.i0valid = true := (congrArg DestPkt.i0valid heq).symm.trans h
    have hp : s.p1.valid = true := (Bool.and_eq_true_iff.mp hv).1
    have hpipe := hg.e1 (live_of_i0valid hp)
    have hen : s.cpu.dec.i0E2CtlEn (s.decIn i) = true := by simp [i0E2CtlEn, hf, hpipe]
    have hde : s.cpu.dec.i0E2DataEn (s.decIn i) = true := by simp [i0E2DataEn, hf, hpipe]
    refine Or.inr ⟨hp, ?_⟩
    rw [hreg, hen, hde]
    exact pkt_kill hv

theorem next_p3 (hg : Gated s.cpu.dec) (h : (s.next i).p3.valid = true) :
    (s.p3.valid = true ∧ (s.next i).p3 = s.p3) ∨ (s.p2.valid = true ∧ (s.next i).p3 = s.p2) := by
  have hreg : (s.next i).p3 = pkt (rvdffs (s.cpu.dec.i0E3CtlEn (s.decIn i)) (s.cpu.dec.e2dIn (s.decIn i)) s.cpu.dec.e3d)
      (rvdffs (s.cpu.dec.i0E3CtlEn (s.decIn i)) s.cpu.dec.e2t s.cpu.dec.e3t)
      (rvdffs (s.cpu.dec.i0E3DataEn (s.decIn i)) s.i0InstE2 s.i0InstE3)
      (rvdffs (s.cpu.dec.i0E3CtlEn (s.decIn i)) s.csrE2 s.csrE3) := rfl
  cases hf : (s.decIn i).freeze with
  | true =>
    have hen : s.cpu.dec.i0E3CtlEn (s.decIn i) = false := by simp [i0E3CtlEn, hf]
    have hde : s.cpu.dec.i0E3DataEn (s.decIn i) = false := by simp [i0E3DataEn, hf]
    have hhold : (s.next i).p3 = s.p3 := by rw [hreg, hen, hde]; rfl
    exact Or.inl ⟨hhold ▸ h, hhold⟩
  | false =>
    have heq := (next_e3d (i := s.decIn i) hg).eq_of_live (live_of_i0valid h)
    rw [hf, if_neg (by decide)] at heq
    have hv : (s.cpu.dec.e2dIn (s.decIn i)).i0valid = true := (congrArg DestPkt.i0valid heq).symm.trans h
    have hp : s.p2.valid = true := (Bool.and_eq_true_iff.mp hv).1
    have hpipe := hg.e2 (live_of_i0valid hp)
    have hen : s.cpu.dec.i0E3CtlEn (s.decIn i) = true := by simp [i0E3CtlEn, hf, hpipe]
    have hde : s.cpu.dec.i0E3DataEn (s.decIn i) = true := by simp [i0E3DataEn, hf, hpipe]
    refine Or.inr ⟨hp, ?_⟩
    rw [hreg, hen, hde]
    exact pkt_kill hv

theorem next_p4 (hg : Gated s.cpu.dec) (h : (s.next i).p4.valid = true) :
    s.p3.valid = true ∧ (s.next i).p4 = s.p3 := by
  have hreg : (s.next i).p4 = pkt (rvdffs (s.cpu.dec.i0E4CtlEn (s.decIn i)) (s.cpu.dec.e3dIn (s.decIn i)) s.cpu.dec.e4d)
      (rvdffs (s.cpu.dec.i0E4CtlEn (s.decIn i)) (s.cpu.dec.e3tIn (s.decIn i)) s.cpu.dec.e4t)
      (rvdffs (s.cpu.dec.i0E4DataEn (s.decIn i)) s.i0InstE3 s.i0InstE4)
      (rvdffs (s.cpu.dec.i0E4CtlEn (s.decIn i)) (s.csrE3In i) s.csrE4) := rfl
  have heq := (next_e4d (i := s.decIn i) hg).eq_of_live (live_of_i0valid h)
  have hv : (s.cpu.dec.e3dIn (s.decIn i)).i0valid = true := (congrArg DestPkt.i0valid heq).symm.trans h
  obtain ⟨hl3, hf⟩ := e3dIn_live (live_of_i0valid hv)
  have hfl := e3dIn_flush (live_of_i0valid hv)
  have hpipe := hg.e3 hl3
  have hen : s.cpu.dec.i0E4CtlEn (s.decIn i) = true := by simp [i0E4CtlEn, hpipe]
  have hde : s.cpu.dec.i0E4DataEn (s.decIn i) = true := by simp [i0E4DataEn, hpipe]
  rw [e3dIn, if_neg (by rw [hf]; decide)] at hv
  rw [hreg, hen, hde, rvdffs_true, rvdffs_true, rvdffs_true, rvdffs_true, e3dIn, e3tIn, csrE3In, hfl, hf]
  rw [hfl] at hv
  exact ⟨(Bool.and_eq_true_iff.mp hv).1, pkt_kill hv⟩

/-! ## What holds of every instruction on its way -/

/-- Every valid instruction from E1 to E4 has the property `P`. -/
structure InPipe (P : FpPkt → Prop) (s : FpCpu) : Prop where
  e1 : s.p1.valid = true → P s.p1
  e2 : s.p2.valid = true → P s.p2
  e3 : s.p3.valid = true → P s.p3
  e4 : s.p4.valid = true → P s.p4

theorem inPipe_reset (m : DccmMem) : InPipe P { cpu := { mem := m } } := ⟨nofun, nofun, nofun, nofun⟩

/-- Decode is the only source of instructions. -/
theorem InPipe.next (h : InPipe P s) (hg : Gated s.cpu.dec) (hd : s.i0DecodeD i = true → P (s.issued i)) :
    InPipe P (s.next i) := by
  refine ⟨fun hv => ?_, fun hv => ?_, fun hv => ?_, fun hv => ?_⟩
  · rcases next_p1 hg hv with ⟨hp, heq⟩ | ⟨hp, heq⟩
    · exact heq ▸ h.e1 hp
    · exact heq ▸ hd hp
  · rcases next_p2 hg hv with ⟨hp, heq⟩ | ⟨hp, heq⟩
    · exact heq ▸ h.e2 hp
    · exact heq ▸ h.e1 hp
  · rcases next_p3 hg hv with ⟨hp, heq⟩ | ⟨hp, heq⟩
    · exact heq ▸ h.e3 hp
    · exact heq ▸ h.e2 hp
  · obtain ⟨hp, heq⟩ := next_p4 hg hv
    exact heq ▸ h.e3 hp

end FpCpu

end SocRV
