import SocRV.Core.FpTrace
import SocRV.Lib.Retire

/-!
# The floating-point state follows what retires

`FpArch` is the floating-point state as a programmer sees it, and `FpEffect` what an instruction does to it.  Every
instruction of slot `i0` that the trap unit committed in E4 retires in write-back with its effect.  In a run in which no
floating-point load is decoded with FS off, the registers are at any time what the retired instructions leave.
-/

namespace SocRV

/-! ## The state and the effects -/

/-- `f0` to `f31`, the field FS of `mstatus`, `fflags` and `frm`. -/
structure FpArch where
  fpr : BitVec 5 → BitVec 32
  fs : BitVec 2
  fflags : BitVec 5
  frm : BitVec 3

/-- What an instruction does to the floating-point state: a load writes a register, an operation writes one unless its
result is an integer and raises flags, a CSR instruction writes a CSR. -/
inductive FpEffect where
  | load (rd : BitVec 5) (data : BitVec 32)
  | op (rd : Option (BitVec 5)) (result : BitVec 32) (flags : BitVec 5)
  | csr (addr : BitVec 12) (data : BitVec 32)
  | none
  deriving DecidableEq, Repr

namespace FpArch

variable (a : FpArch)

/-- A register written, or none. -/
def write (rd : Option (BitVec 5)) (data : BitVec 32) : BitVec 5 → BitVec 32 :=
  match rd with
  | some rd => Function.update a.fpr rd data
  | none => a.fpr

/-- A write to a CSR; the CSRs of the floating-point state make it dirty. -/
def writeCsr (addr : BitVec 12) (data : BitVec 32) : FpArch :=
  if addr = csrMstatus then { a with fs := data.extractLsb' 13 2 }
  else if addr = csrFflags then { a with fs := 3, fflags := data.extractLsb' 0 5 }
  else if addr = csrFrm then { a with fs := 3, frm := data.extractLsb' 0 3 }
  else if addr = csrFcsr then { a with fs := 3, fflags := data.extractLsb' 0 5, frm := data.extractLsb' 5 3 }
  else a

/-- The state after an effect. -/
def step : FpEffect → FpArch
  | .load rd data => { a with fpr := a.write (some rd) data, fs := 3 }
  | .op rd result flags => { a with fpr := a.write rd result, fs := 3, fflags := a.fflags ||| flags }
  | .csr addr data => a.writeCsr addr data
  | .none => a

end FpArch

/-! ## Commit and kill -/

namespace Tlu

variable {s : Tlu} {i : TluIn}

/-- Outside debug mode a valid instruction in E4 commits exactly when it is not killed. -/
theorem commit_iff_not_kill (hv : i.i0ValidE4 = true) (hdbg : i.dbgHalted = false)
    (hreq : i.requestDebugModeWb = false) : s.tluI0CommitCmt i = !s.tluI0KillWritebE4 i := by
  simp only [tluI0CommitCmt, tluI0KillWritebE4, hv, hdbg, hreq, Bool.and_false, Bool.or_false, Bool.not_false,
    Bool.and_true, Bool.true_and, Bool.not_or]

/-- What commits is valid. -/
theorem valid_of_commit (h : s.tluI0CommitCmt i = true) : i.i0ValidE4 = true := by
  simp only [tluI0CommitCmt, Bool.and_eq_true] at h
  exact h.1.1.1.1.1.1.1

/-- A legal packet is not an illegal instruction. -/
theorem not_illegal (h : i.packetE4.legal = true) : s.illegalE4 i = false := by
  simp [illegalE4, h]

end Tlu

namespace FpCpu

open DestPkt Dec

variable {s : FpCpu} {i : FpCpuIn}

/-- The floating-point state of the core. -/
def arch (s : FpCpu) : FpArch := ⟨s.fpr, s.mstatusFs, s.fflags, s.frm⟩

/-- The effect of the instruction in write-back. -/
def effect (s : FpCpu) (i : FpCpuIn) : FpEffect :=
  if s.cpu.dec.fpuWenWb then
    .op (if fpWritesGpr s.fpuInst then none else some (instRd s.fpuInst)) s.fpuResultHold s.fpuFflags
  else if s.cpu.dec.divWenWb then .none
  else if fpload s.i0InstWb then .load (instRd s.i0InstWb) s.i0ResultWbRaw
  else if s.csrWb.wen && !s.triggerHitWb then .csr s.csrWb.waddr (s.csrWrdataWb i)
  else .none

/-- The instruction that retires in write-back, with the cycle in which it was decoded. -/
def retires (s : FpCpu) (i : FpCpuIn) : List (Nat × FpEffect) :=
  if s.i0ValidWb then [(s.cpu.dec.wbd.seq, s.effect i)] else []

/-- What retires is the instruction of write-back, with its effect. -/
theorem mem_retires {e : Nat × FpEffect} (he : e ∈ s.retires i) :
    s.i0ValidWb = true ∧ e = (s.cpu.dec.wbd.seq, s.effect i) := by
  unfold retires at he
  split_ifs at he with hv
  · exact ⟨hv, List.mem_singleton.mp he⟩
  · cases he

/-! ## The environment -/

/-- A floating-point load is decoded only while FS is not off. -/
def LoadsEnabled (s : FpCpu) (i : FpCpuIn) : Prop :=
  s.i0DecodeD i = true → (s.i0dp i).fpload = true → s.fpEnabled = true

instance (s : FpCpu) (i : FpCpuIn) : Decidable (s.LoadsEnabled i) :=
  inferInstanceAs (Decidable (_ → _ → _))

/-- The debugger is not connected, and `fpnew` answers only what it has accepted, with its tag. -/
structure Env (s : FpCpu) (i : FpCpuIn) : Prop where
  halted : i.cpu.tlu.dbgHalted = false
  request : i.cpu.tlu.requestDebugModeWb = false
  answers : s.cpu.fpu.AnswersTagged i.cpu.fpu

instance (s : FpCpu) (i : FpCpuIn) : Decidable (s.Env i) :=
  decidable_of_iff (i.cpu.tlu.dbgHalted = false ∧ i.cpu.tlu.requestDebugModeWb = false ∧
      s.cpu.fpu.AnswersTagged i.cpu.fpu)
    ⟨fun h => ⟨h.1, h.2.1, h.2.2⟩, fun h => ⟨h.halted, h.request, h.answers⟩⟩

/-! ## What reaches write-back -/

/-- What is known of a valid instruction on its way: a floating-point load is legal and no long operation, and so is
what writes a CSR. -/
structure Fits (p : FpPkt) : Prop where
  load : fpload p.inst = true → p.legal = true ∧ p.fpu = false ∧ p.div = false
  csr : p.csr.wen = true → p.legal = true ∧ p.fpu = false ∧ p.div = false ∧ fpload p.inst = false

/-- An instruction that decode takes for what it is, or replaces by a harmless one, is legal. -/
theorem legal_of_fpload (he : s.LoadsEnabled i) (hd : s.i0DecodeD i = true)
    (h : fpload i.cpu.dec.i0.instr = true) : s.i0LegalDecodeD i = true := by
  have hd' : s.cpu.dec.i0DecodeD (s.decIn i) = true := hd
  have hdp : s.i0dp i = i0Dp i.cpu.dec.i0.instr s.fpEnabled s.frm
      (i.cpu.dec.i0.brErrorAll i.cpu.dec.leak1Mode || i.cpu.dec.i0.instrError) := rfl
  have hlegal : (s.i0dp i).legal = true ∧ (s.i0dp i).csrRead = false ∧ (s.i0dp i).csrWrite = false := by
    have he' := he hd
    rw [hdp] at he' ⊢
    unfold i0Dp at he' ⊢
    rw [fpOp_of_fpload h, h] at he' ⊢
    cases hbad : (i.cpu.dec.i0.brErrorAll i.cpu.dec.leak1Mode || i.cpu.dec.i0.instrError) with
    | true => exact ⟨rfl, rfl, rfl⟩
    | false =>
      rw [hbad] at he'
      exact ⟨he' rfl, rfl, rfl⟩
  have hleg : i0Legal (s.decIn i) = true := by
    have hdec : Dec.i0dp (s.decIn i) = s.i0dp i := rfl
    simp [i0Legal, hdec, hlegal.1, hlegal.2.1, hlegal.2.2]
  simp [i0LegalDecodeD, Dec.i0LegalDecodeD, hd', hleg, (of_i0Decode hd').2.2.2]

/-- What decode issues fits, as loads are issued only while FS is on. -/
theorem fits_issued (he : s.LoadsEnabled i) (hd : s.i0DecodeD i = true) : Fits (s.issued i) := by
  have hfpu : (s.issued i).fpu = ((s.i0dp i).fpu && s.i0LegalDecodeD i) := rfl
  have hdiv : (s.issued i).div = ((s.i0dp i).div && s.i0LegalDecodeD i) := rfl
  constructor
  · intro h
    have h1 : (s.i0dp i).fpu = false := (i0Dp_of_fpload h).1
    have h2 : (s.i0dp i).div = false := (i0Dp_of_fpload h).2.1
    exact ⟨legal_of_fpload he hd h, by rw [hfpu, h1, Bool.false_and], by rw [hdiv, h2, Bool.false_and]⟩
  · intro h
    have hw := Bool.and_eq_true_iff.mp h
    have h1 : (s.i0dp i).fpu = false := (i0Dp_of_csrWenUnq hw.1).1
    have h2 : (s.i0dp i).div = false := (i0Dp_of_csrWenUnq hw.1).2.1
    exact ⟨hw.2, by rw [hfpu, h1, Bool.false_and], by rw [hdiv, h2, Bool.false_and], (i0Dp_of_csrWenUnq hw.1).2.2⟩

/-- A valid instruction in write-back is a division or a floating-point operation that has completed, or comes from
E4. -/
theorem next_wb (hg : Gated s.cpu.dec) (hv : (s.next i).cpu.dec.wbd.i0valid = true) :
    ((s.decIn i).exuDivFinish = true ∧ (s.next i).i0InstWb = s.divInst ∧ (s.next i).csrWb = {}) ∨
    ((s.decIn i).exuDivFinish = false ∧ (s.decIn i).fpuRespValid = true ∧ (s.next i).i0InstWb = s.fpuInst ∧
      (s.next i).csrWb = {}) ∨
    ((s.decIn i).exuDivFinish = false ∧ (s.decIn i).fpuRespValid = false ∧ (s.decIn i).flushLowerWb = false ∧
      s.p4.valid = true ∧ s.p4.fpu = false ∧ (s.next i).i0InstWb = s.p4.inst ∧ (s.next i).csrWb = s.p4.csr ∧
      (s.next i).cpu.dec.wbd.seq = s.p4.seq) := by
  have hinst : (s.next i).i0InstWb = rvdffs (s.cpu.dec.i0PipeEn1 || (s.decIn i).clkOverride ||
      (s.decIn i).exuDivFinish || (s.decIn i).fpuRespValid) (if (s.decIn i).exuDivFinish then s.divInst
        else if (s.decIn i).fpuRespValid then s.fpuInst else s.i0InstE4) s.i0InstWb := rfl
  have hcsr : (s.next i).csrWb = rvdffs (s.cpu.dec.i0WbCtlEn (s.decIn i) || (s.decIn i).exuDivFinish ||
      s.cpu.dec.divWenWb || (s.decIn i).fpuRespValid || s.cpu.dec.fpuWenWb) (s.csrE4In i) s.csrWb := rfl
  have heq : (s.next i).cpu.dec.wbd = s.cpu.dec.e4dIn (s.decIn i) :=
    (next_wbd (i := s.decIn i) hg).eq_of_live (live_of_i0valid hv)
  rw [heq] at hv ⊢
  cases hd : (s.decIn i).exuDivFinish with
  | true =>
    refine Or.inl ⟨rfl, ?_, ?_⟩
    · simp [hinst, hd]
    · simp [hcsr, csrE4In, hd]
  | false =>
    cases hr : (s.decIn i).fpuRespValid with
    | true =>
      refine Or.inr (Or.inl ⟨rfl, rfl, ?_, ?_⟩)
      · simp [hinst, hd, hr]
      · simp [hcsr, csrE4In, hr]
    | false =>
      simp only [e4dIn, hd, hr, Bool.or_false, Bool.and_eq_true, Bool.not_eq_true'] at hv
      have hpipe := hg.e4 (live_of_i0valid hv.1.1)
      refine Or.inr (Or.inr ⟨rfl, rfl, hv.2, hv.1.1, hv.1.2, ?_, ?_, ?_⟩)
      · simp [hinst, hd, hr, hpipe, p4, pkt]
      · simp [hcsr, csrE4In, hd, hr, hpipe, i0WbCtlEn, p4, pkt]
      · simp [e4dIn, hd, hr, p4, pkt]

/-- What is known of write-back and of the long operations. -/
structure WriteBack (s : FpCpu) : Prop where
  gate : s.cpu.tlu.e5Valid = false → s.i0ValidWb = false
  valid : s.i0ValidWb = true → s.cpu.dec.wbd.i0valid = true ∧ s.kill = false
  writes : s.cpu.dec.wbd.i0valid = true → s.kill = false →
    (fpload s.i0InstWb = true ∨ s.csrWb.wen = true ∨ s.cpu.dec.fpuWenWb = true) → s.i0ValidWb = true
  long : s.cpu.dec.fpuWenWb = true ∨ s.cpu.dec.divWenWb = true → fpload s.i0InstWb = false ∧ s.csrWb.wen = false
  apart : s.cpu.dec.wbd.i0valid = true → s.csrWb.wen = true → fpload s.i0InstWb = false
  hold : s.cpu.dec.fpuWenWb = true →
    s.fpuRdHold = instRd s.fpuInst ∧ s.fpuWritesFprHold = !fpWritesGpr s.fpuInst
  request : s.cpu.fpu.busy = true → s.cpu.fpu.instQ = s.fpuInst
  insts : fpload s.divInst = false ∧ fpload s.fpuInst = false

theorem writeBack_reset (m : DccmMem) : WriteBack { cpu := { mem := m } } :=
  ⟨fun _ => rfl, nofun, nofun, by simp, nofun, nofun, nofun, ⟨rfl, rfl⟩⟩

/-! ### The ports of the trap unit at E4 -/

/-- The surroundings let `fpnew` answer only what it has accepted. -/
theorem answers_of_env (he : Env s i) : s.cpu.fpu.Answers (s.cpuIn i).fpu := fun h => (he.answers h).1

/-- What completes or leaves E4 without being a long operation is valid for the trap unit. -/
theorem tluI0ValidE4_of (h : (s.decIn i).exuDivFinish = true ∨ (s.decIn i).fpuRespValid = true ∨
    (s.p4.valid = true ∧ s.p4.fpu = false ∧ s.p4.div = false ∧ (s.decIn i).flushLowerWb = false)) :
    (s.tluIn i).i0ValidE4 = true := by
  have heq : (s.tluIn i).i0ValidE4 = s.cpu.dec.tluI0ValidE4 (s.decIn i) := rfl
  rw [heq, tluI0ValidE4]
  rcases h with h | h | ⟨hv, hf, hd, hfl⟩
  · rw [h, Bool.or_true, Bool.true_or]
  · rw [h, Bool.or_true]
  · have hv' : s.cpu.dec.e4d.i0valid = true := hv
    have hf' : s.cpu.dec.e4d.i0fpu = false := hf
    have hd' : s.cpu.dec.e4d.i0div = false := hd
    rw [hv', hf', hd', hfl]
    rfl

/-- A valid instruction in E4 is the one that reaches write-back. -/
theorem next_wbd_valid (hg : Gated s.cpu.dec) (h : (s.tluIn i).i0ValidE4 = true) :
    (s.next i).cpu.dec.wbd.i0valid = true := by
  have heq : (s.tluIn i).i0ValidE4 = s.cpu.dec.tluI0ValidE4 (s.decIn i) := rfl
  rw [next_dec, (next_wbd hg).valid_eq.1]
  simp only [heq, tluI0ValidE4, e4dIn, Bool.or_eq_true, Bool.and_eq_true] at h ⊢
  rcases h with (⟨⟨⟨hv, -⟩, hf⟩, hfl⟩ | h) | h
  · exact Or.inl (Or.inl ⟨⟨hv, hf⟩, hfl⟩)
  · exact Or.inl (Or.inr h)
  · exact Or.inr h

/-- The clock of `i0ValidWb` runs whenever an instruction is valid in E4. -/
theorem next_i0ValidWb (h : (s.tluIn i).i0ValidE4 = true) :
    (s.next i).i0ValidWb = (s.cpu.tlu.tluI0CommitCmt (s.tluIn i) && !s.cpu.tlu.illegalE4 (s.tluIn i)) := by
  have hen : s.cpu.tlu.e4e5IntEn (s.tluIn i) = true := by simp [Tlu.e4e5IntEn, Tlu.e4e5En, Tlu.e4Valid, h]
  have heq : (s.next i).i0ValidWb = rvdffs (s.cpu.tlu.e4e5IntEn (s.tluIn i))
      (s.cpu.tlu.tluI0CommitCmt (s.tluIn i) && !s.cpu.tlu.illegalE4 (s.tluIn i)) s.i0ValidWb := rfl
  rw [heq, hen]
  rfl

/-- A legal instruction that is valid in E4 retires unless it is killed. -/
theorem next_i0ValidWb_of_legal (he : Env s i) (h : (s.tluIn i).i0ValidE4 = true)
    (hlegal : (s.tluIn i).packetE4.legal = true) (hkill : (s.next i).kill = false) : (s.next i).i0ValidWb = true := by
  have hkill' : s.cpu.tlu.tluI0KillWritebE4 (s.tluIn i) = false := hkill
  rw [next_i0ValidWb h, Tlu.commit_iff_not_kill h he.halted he.request, hkill', Tlu.not_illegal hlegal]
  rfl

/-- Without a valid instruction in E4 none retires. -/
theorem valid_of_next_i0ValidWb (hgate : s.cpu.tlu.e5Valid = false → s.i0ValidWb = false)
    (h : (s.next i).i0ValidWb = true) : (s.tluIn i).i0ValidE4 = true := by
  have heq : (s.next i).i0ValidWb = rvdffs (s.cpu.tlu.e4e5IntEn (s.tluIn i))
      (s.cpu.tlu.tluI0CommitCmt (s.tluIn i) && !s.cpu.tlu.illegalE4 (s.tluIn i)) s.i0ValidWb := rfl
  rw [heq] at h
  cases hen : s.cpu.tlu.e4e5IntEn (s.tluIn i) with
  | true =>
    rw [hen, rvdffs_true, Bool.and_eq_true] at h
    exact Tlu.valid_of_commit h.1
  | false =>
    rw [hen, rvdffs_false] at h
    simp only [Tlu.e4e5IntEn, Tlu.e4e5En, Bool.or_eq_false_iff] at hen
    rw [hgate hen.1.1.1.1.1.2] at h
    cases h

/-! ### The step of write-back -/

section Step

variable (h : WriteBack s) (hs : s.cpu.Sound) (ha : s.cpu.Alone) (hp : InPipe Fits s) (he : Env s i)

include h

/-- What is not clocked into write-back is not valid there. -/
theorem WriteBack.gate_next (hv : (s.next i).cpu.tlu.e5Valid = false) : (s.next i).i0ValidWb = false := by
  have hv' : Tlu.e4Valid (s.tluIn i) = false := hv
  by_contra hn
  rw [Bool.not_eq_false] at hn
  rw [Tlu.e4Valid, valid_of_next_i0ValidWb h.gate hn, Bool.true_or] at hv'
  cases hv'

include hs he

/-- A valid instruction in write-back has a live packet, and no flush kills it. -/
theorem WriteBack.valid_next (hv : (s.next i).i0ValidWb = true) :
    (s.next i).cpu.dec.wbd.i0valid = true ∧ (s.next i).kill = false := by
  have hvalid := valid_of_next_i0ValidWb h.gate hv
  rw [next_i0ValidWb hvalid, Tlu.commit_iff_not_kill hvalid he.halted he.request, Bool.and_eq_true,
    Bool.not_eq_true'] at hv
  exact ⟨next_wbd_valid hs.gated hvalid, hv.1⟩

include ha

omit h in
/-- A division and a floating-point operation never complete together. -/
theorem divFinish_of_respValid (hr : (s.decIn i).fpuRespValid = true) : (s.decIn i).exuDivFinish = false := by
  by_contra hd
  rw [Bool.not_eq_false] at hd
  have hbusy := Cpu.busy_of_respValid (answers_of_env he) hr
  exact absurd (hs.div.of_finish hd).1 (by rw [ha.apart hbusy]; decide)

include hp

/-- A load, a CSR write or an answer of the FPU that no flush kills makes write-back valid. -/
theorem WriteBack.writes_next (hv : (s.next i).cpu.dec.wbd.i0valid = true) (hk : (s.next i).kill = false)
    (hw : fpload (s.next i).i0InstWb = true ∨ (s.next i).csrWb.wen = true ∨ (s.next i).cpu.dec.fpuWenWb = true) :
    (s.next i).i0ValidWb = true := by
  have hpkt : (s.tluIn i).packetE4 = s.cpu.dec.tluPacketE4 (s.decIn i) := rfl
  rcases next_wb hs.gated hv with ⟨hd, hinst, hcsr⟩ | ⟨hd, hr, -⟩ | ⟨hd, hr, hfl, hv4, hfpu, hinst, hcsr, -⟩
  · rw [hinst, hcsr, h.insts.1] at hw
    rcases hw with hw | hw | hw
    · cases hw
    · cases hw
    · have hr : (s.decIn i).fpuRespValid = true := hw
      rw [divFinish_of_respValid hs ha he hr] at hd
      cases hd
  · refine next_i0ValidWb_of_legal he (tluI0ValidE4_of (Or.inr (Or.inl hr))) ?_ hk
    rw [hpkt, tluPacketE4, hr, Bool.or_true]
    rfl
  · have hfits := hp.e4 hv4
    have hlegal : s.p4.legal = true ∧ s.p4.div = false := by
      rw [hinst, hcsr] at hw
      rcases hw with hw | hw | hw
      · exact ⟨(hfits.load hw).1, (hfits.load hw).2.2⟩
      · exact ⟨(hfits.csr hw).1, (hfits.csr hw).2.2.1⟩
      · exact absurd (hr.symm.trans hw) (by decide)
    refine next_i0ValidWb_of_legal he (tluI0ValidE4_of (Or.inr (Or.inr ⟨hv4, hfpu, hlegal.2, hfl⟩))) ?_ hk
    rw [hpkt, tluPacketE4, hd, hr]
    exact hlegal.1

omit hp ha he in
/-- A long operation in write-back is neither a load nor a CSR write. -/
theorem WriteBack.long_next (hw : (s.next i).cpu.dec.fpuWenWb = true ∨ (s.next i).cpu.dec.divWenWb = true) :
    fpload (s.next i).i0InstWb = false ∧ (s.next i).csrWb.wen = false := by
  have hv : (s.next i).cpu.dec.wbd.i0valid = true := by
    refine next_wbd_valid hs.gated (tluI0ValidE4_of ?_)
    rcases hw with hw | hw
    · exact Or.inr (Or.inl hw)
    · exact Or.inl hw
  rcases next_wb hs.gated hv with ⟨-, hinst, hcsr⟩ | ⟨-, -, hinst, hcsr⟩ | ⟨hd, hr, -⟩
  · rw [hinst, hcsr]
    exact ⟨h.insts.1, rfl⟩
  · rw [hinst, hcsr]
    exact ⟨h.insts.2, rfl⟩
  · rcases hw with hw | hw
    · exact absurd (hr.symm.trans hw) (by decide)
    · exact absurd (hd.symm.trans hw) (by decide)

omit h ha he in
/-- A CSR write is no floating-point load. -/
theorem WriteBack.apart_next (hv : (s.next i).cpu.dec.wbd.i0valid = true) (hw : (s.next i).csrWb.wen = true) :
    fpload (s.next i).i0InstWb = false := by
  rcases next_wb hs.gated hv with ⟨-, -, hcsr⟩ | ⟨-, -, -, hcsr⟩ | ⟨-, -, -, hv4, -, hinst, hcsr, -⟩
  · rw [hcsr] at hw
    cases hw
  · rw [hcsr] at hw
    cases hw
  · rw [hcsr] at hw
    rw [hinst]
    exact ((hp.e4 hv4).csr hw).2.2.2

omit hs ha hp he in
/-- The unit works on the instruction decode issued last. -/
theorem WriteBack.request_next (hb : (s.next i).cpu.fpu.busy = true) :
    (s.next i).cpu.fpu.instQ = (s.next i).fpuInst := by
  have hinst : (s.next i).fpuInst =
      rvdffs (s.cpu.dec.i0FpuDecodeD (s.decIn i)) i.cpu.dec.i0.instr s.fpuInst := rfl
  have hnext : (s.next i).cpu.fpu = s.cpu.fpu.next (s.cpu.fpuIn (s.cpuIn i)) := rfl
  have hreq : (s.cpu.fpuIn (s.cpuIn i)).reqValid = s.cpu.dec.i0FpuDecodeD (s.decIn i) := rfl
  have hdata : (s.cpu.fpuIn (s.cpuIn i)).inst = i.cpu.dec.i0.instr := rfl
  have hflush : (s.cpu.fpuIn (s.cpuIn i)).flush = false := by
    by_contra hf
    rw [Bool.not_eq_false] at hf
    rw [hnext, Fpu.next, if_pos hf] at hb
    cases hb
  rw [hnext, Fpu.next, hflush, if_neg (by decide), hinst, hreq, hdata]
  cases hd : s.cpu.dec.i0FpuDecodeD (s.decIn i) with
  | true =>
    have hready : s.cpu.fpu.reqReady = true := by
      have hidle := (idle_of_fpuDecode hd).2.2.1
      simp only [Fpu.reqReady, ← Bool.not_or]
      exact congrArg not hidle
    simp [hready]
  | false =>
    have hbusy := (Cpu.of_next_busy hb).resolve_right (by rw [show s.cpu.decIn (s.cpuIn i) = s.decIn i from rfl, hd]; decide)
    simpa using h.request hbusy

omit hp hs ha in
/-- With the answer the held destination is that of the operation answered. -/
theorem WriteBack.hold_next (hw : (s.next i).cpu.dec.fpuWenWb = true) :
    (s.next i).fpuRdHold = instRd (s.next i).fpuInst ∧
      (s.next i).fpuWritesFprHold = !fpWritesGpr (s.next i).fpuInst := by
  have hr : (s.decIn i).fpuRespValid = true := hw
  have hbusy := Cpu.busy_of_respValid (answers_of_env he) hr
  have hidle : s.cpu.dec.i0FpuDecodeD (s.decIn i) = false := by
    by_contra hd
    rw [Bool.not_eq_false] at hd
    exact absurd (idle_of_fpuDecode hd).2.2.1 (by rw [show (s.decIn i).fpuBusy = true from hbusy]; decide)
  have hinst : (s.next i).fpuInst = s.fpuInst := by
    rw [show (s.next i).fpuInst = rvdffs (s.cpu.dec.i0FpuDecodeD (s.decIn i)) i.cpu.dec.i0.instr s.fpuInst from rfl,
      hidle]
    rfl
  have hvalid : i.cpu.fpu.fpOutValid = true := (Bool.and_eq_true_iff.mp hr).1
  have htag := (he.answers hvalid).2
  rw [Fpu.requestTag, h.request hbusy] at htag
  have hrd : (s.next i).fpuRdHold = rvdffs (s.decIn i).fpuRespValid (Fpu.rd i.cpu.fpu) s.fpuRdHold := rfl
  have hwr : (s.next i).fpuWritesFprHold =
      rvdffs (s.decIn i).fpuRespValid (i.cpu.fpu.fpTag.getLsbD 5) s.fpuWritesFprHold := rfl
  rw [hrd, hwr, hr, rvdffs_true, rvdffs_true, hinst, Fpu.rd, htag]
  refine ⟨BitVec.extractLsb'_append_eq_right, ?_⟩
  rw [BitVec.getLsbD_append, BitVec.getLsbD_append]
  simp

omit hs ha hp he in
/-- The held long operations are no floating-point loads. -/
theorem WriteBack.insts_next : fpload (s.next i).divInst = false ∧ fpload (s.next i).fpuInst = false := by
  have hdiv : (s.next i).divInst =
      rvdffs (s.cpu.dec.i0DivDecodeD (s.decIn i)) i.cpu.dec.i0.instr s.divInst := rfl
  have hfpu : (s.next i).fpuInst =
      rvdffs (s.cpu.dec.i0FpuDecodeD (s.decIn i)) i.cpu.dec.i0.instr s.fpuInst := rfl
  constructor
  · rw [hdiv]
    cases hd : s.cpu.dec.i0DivDecodeD (s.decIn i) with
    | true =>
      by_contra hl
      rw [rvdffs_true, Bool.not_eq_false] at hl
      have hdp : (Dec.i0dp (s.decIn i)).div = true := (Bool.and_eq_true_iff.mp hd).2
      have hno : (Dec.i0dp (s.decIn i)).div = false := (i0Dp_of_fpload hl).2.1
      rw [hdp] at hno
      cases hno
    | false => exact h.insts.1
  · rw [hfpu]
    cases hd : s.cpu.dec.i0FpuDecodeD (s.decIn i) with
    | true =>
      by_contra hl
      rw [rvdffs_true, Bool.not_eq_false] at hl
      have hdp : (Dec.i0dp (s.decIn i)).fpu = true := (Bool.and_eq_true_iff.mp hd).2
      have hno : (Dec.i0dp (s.decIn i)).fpu = false := (i0Dp_of_fpload hl).1
      rw [hdp] at hno
      cases hno
    | false => exact h.insts.2

/-- A cycle keeps what is known of write-back and of the long operations. -/
theorem WriteBack.next : WriteBack (s.next i) :=
  ⟨h.gate_next, h.valid_next hs he, h.writes_next hs ha hp he, h.long_next hs, WriteBack.apart_next hs hp,
    h.hold_next he, h.request_next, h.insts_next⟩

end Step

/-- The invariant of a run. -/
structure FpSound (s : FpCpu) : Prop where
  sound : s.cpu.Sound
  alone : s.cpu.Alone
  fits : InPipe Fits s
  wb : WriteBack s

theorem fpSound_reset (m : DccmMem) : FpSound { cpu := { mem := m } } :=
  ⟨Cpu.sound_reset m, Cpu.alone_reset m, inPipe_reset m, writeBack_reset m⟩

/-- A cycle keeps the invariant. -/
theorem FpSound.next (h : FpSound s) (he : Env s i) (hl : s.LoadsEnabled i) : FpSound (s.next i) :=
  ⟨h.sound.next _, h.alone.next h.sound (answers_of_env he), h.fits.next h.sound.gated (fits_issued hl),
    h.wb.next h.sound h.alone h.fits he⟩

/-- The invariant in every run in which no floating-point load is decoded with FS off. -/
theorem fpSound_run {m : DccmMem} {w : Nat → FpCpuIn}
    (hw : (machine m).Respects (fun s i => Env s i ∧ s.LoadsEnabled i) w) (n : Nat) : FpSound ((machine m).run w n) := by
  induction n with
  | zero => exact fpSound_reset m
  | succ n ih => exact ih.next (hw n).1 (hw n).2

/-! ## The state follows what retires -/

/-- The write enables of the floating-point state are raised for a retiring instruction only. -/
theorem FpSound.quiet (h : FpSound s) (hv : s.i0ValidWb = false) :
    s.fprWen = false ∧ s.fpuFflagsValid = false ∧ s.csrWenWbMod = false := by
  cases hk : s.kill with
  | true => simp [fprWen, fploadWenWb, fpuFflagsValid, csrWenWbMod, hk]
  | false =>
    have hno : s.cpu.dec.wbd.i0valid = true →
        fpload s.i0InstWb = false ∧ s.csrWb.wen = false ∧ s.cpu.dec.fpuWenWb = false := by
      intro hvalid
      have hnot := mt (h.wb.writes hvalid hk) (by rw [hv]; decide)
      rw [not_or, not_or, Bool.not_eq_true, Bool.not_eq_true, Bool.not_eq_true] at hnot
      exact hnot
    have hfpu : s.cpu.dec.fpuWenWb = false := by
      by_contra hf
      rw [Bool.not_eq_false] at hf
      rw [(hno (h.alone.fpuWen hf).2.1).2.2] at hf
      cases hf
    cases hvalid : s.cpu.dec.wbd.i0valid with
    | true =>
      obtain ⟨hload, hcsr, -⟩ := hno hvalid
      simp [fprWen, fploadWenWb, fpuFflagsValid, csrWenWbMod, hfpu, hload, hcsr]
    | false => simp [fprWen, fploadWenWb, fpuFflagsValid, csrWenWbMod, hfpu, hvalid]

/-- A write to a CSR in the cycle after. -/
theorem arch_next_of_csr (hfpr : s.fprWen = false) (hfl : s.fpuFflagsValid = false) (hw : s.csrWenWbMod = true) :
    (s.next i).arch = s.arch.writeCsr s.csrWb.waddr (s.csrWrdataWb i) := by
  have hstep : (s.next i).arch = ⟨s.fpr, s.mstatusFsNs i, s.fflagsNs i, s.frmNs i⟩ := by
    simp [arch, FpCpu.next, hfpr]
  rw [hstep, mstatusFsNs, fflagsNs, frmNs, fpuDirty, hfpr, hfl]
  simp only [wrCsrWb, hw, Bool.true_and, FpArch.writeCsr, beq_iff_eq]
  by_cases h0 : s.csrWb.waddr = csrMstatus
  · simp [h0, arch, csrMstatus, csrFflags, csrFrm, csrFcsr]
  by_cases h1 : s.csrWb.waddr = csrFflags
  · simp [h1, arch, csrMstatus, csrFflags, csrFrm, csrFcsr]
  by_cases h2 : s.csrWb.waddr = csrFrm
  · simp [h2, arch, csrMstatus, csrFflags, csrFrm, csrFcsr]
  by_cases h3 : s.csrWb.waddr = csrFcsr
  · simp [h3, arch, csrMstatus, csrFflags, csrFrm, csrFcsr]
  · simp [h0, h1, h2, h3, arch]

/-- Without a write the state stays. -/
theorem arch_next_of_quiet (hfpr : s.fprWen = false) (hfl : s.fpuFflagsValid = false) (hw : s.csrWenWbMod = false) :
    (s.next i).arch = s.arch := by
  simp [arch, FpCpu.next, mstatusFsNs, fflagsNs, frmNs, fpuDirty, wrCsrWb, hfpr, hfl, hw]

/-- A step changes the floating-point state by the effect of the instruction that retires in it. -/
theorem FpSound.arch_next (h : FpSound s) : (s.next i).arch = applied FpArch.step s.arch (s.retires i) := by
  cases hv : s.i0ValidWb with
  | false =>
    obtain ⟨hfpr, hfl, hcsr⟩ := h.quiet hv
    rw [arch_next_of_quiet hfpr hfl hcsr, retires, hv]
    rfl
  | true =>
    obtain ⟨hvalid, hk⟩ := h.wb.valid hv
    have hstep : applied FpArch.step s.arch (s.retires i) = s.arch.step (s.effect i) := by
      rw [retires, if_pos hv]
      rfl
    rw [hstep]
    cases hfpu : s.cpu.dec.fpuWenWb with
    | true =>
      obtain ⟨hload, hcsr⟩ := h.wb.long (Or.inl hfpu)
      obtain ⟨hrd, hwr⟩ := h.wb.hold hfpu
      cases hgpr : fpWritesGpr s.fpuInst <;>
        simp [arch, FpCpu.next, mstatusFsNs, fflagsNs, frmNs, fpuDirty, wrCsrWb, fprWen, fprWaddr, fprWdata,
          fploadWenWb, fpuFflagsValid, csrWenWbMod, effect, FpArch.step, FpArch.write, hfpu, hload, hcsr, hrd, hwr,
          hgpr, hk]
    | false =>
      cases hdiv : s.cpu.dec.divWenWb with
      | true =>
        obtain ⟨hload, hcsr⟩ := h.wb.long (Or.inr hdiv)
        rw [arch_next_of_quiet (by simp [fprWen, fploadWenWb, hfpu, hload]) (by simp [fpuFflagsValid, hfpu])
          (by simp [csrWenWbMod, hcsr])]
        simp [effect, FpArch.step, hfpu, hdiv]
      | false =>
        cases hload : fpload s.i0InstWb with
        | true =>
          have hcsr : s.csrWb.wen = false := by
            by_contra hw
            rw [h.wb.apart hvalid (by simpa using hw)] at hload
            cases hload
          simp [arch, FpCpu.next, mstatusFsNs, fflagsNs, frmNs, fpuDirty, wrCsrWb, fprWen, fprWaddr, fprWdata,
            fploadWenWb, fpuFflagsValid, csrWenWbMod, i0ResultWb, effect, FpArch.step, FpArch.write, hvalid, hk, hfpu,
            hdiv, hload, hcsr]
        | false =>
          have hfpr : s.fprWen = false := by simp [fprWen, fploadWenWb, hfpu, hload]
          have hfl : s.fpuFflagsValid = false := by simp [fpuFflagsValid, hfpu]
          cases hcsr : (s.csrWb.wen && !s.triggerHitWb) with
          | true =>
            have hw : s.csrWenWbMod = true := by
              simp only [csrWenWbMod, hvalid, hk, Bool.and_true, Bool.not_false]
              exact hcsr
            rw [arch_next_of_csr hfpr hfl hw]
            simp [effect, FpArch.step, hfpu, hdiv, hload, hcsr]
          | false =>
            have hw : s.csrWenWbMod = false := by
              rw [Bool.and_eq_false_iff, Bool.not_eq_false'] at hcsr
              rcases hcsr with hcsr | hcsr <;> simp [csrWenWbMod, hcsr]
            rw [arch_next_of_quiet hfpr hfl hw]
            simp [effect, FpArch.step, hfpu, hdiv, hload, hcsr]

/-- In such a run the floating-point state is what the retired instructions leave. -/
theorem arch_run {m : DccmMem} {w : Nat → FpCpuIn}
    (hw : (machine m).Respects (fun s i => Env s i ∧ s.LoadsEnabled i) w) (n : Nat) :
    ((machine m).run w n).arch =
      applied FpArch.step (machine m).reset.arch ((machine m).events FpCpu.retires w n) :=
  Machine.run_applied (fun k => (fpSound_run hw k).arch_next) n

/-! ## What retires is what commits -/

/-- The instruction of slot `i0` in E4 commits and is legal: what `dec_tlu_ctl` clocks into `i0_valid_wb`. -/
def commitsE4 (s : FpCpu) (i : FpCpuIn) : Bool :=
  s.cpu.tlu.tluI0CommitCmt (s.tluIn i) && !s.cpu.tlu.illegalE4 (s.tluIn i)

/-- The instruction decoded in cycle `t` commits in some cycle of the run. -/
def Commits (m : DccmMem) (w : Nat → FpCpuIn) (t : Nat) : Prop :=
  ∃ n, ((machine m).run w n).commitsE4 (w n) = true ∧ ((machine m).run w (n + 1)).cpu.dec.wbd.seq = t

/-- An instruction retires because it committed in the cycle before. -/
theorem commits_of_i0ValidWb {m : DccmMem} {w : Nat → FpCpuIn}
    (hw : (machine m).Respects (fun s i => Env s i ∧ s.LoadsEnabled i) w) {n : Nat}
    (hv : ((machine m).run w n).i0ValidWb = true) : Commits m w ((machine m).run w n).cpu.dec.wbd.seq := by
  cases n with
  | zero => cases hv
  | succ n =>
    refine ⟨n, ?_, rfl⟩
    rw [Machine.run_succ] at hv
    have hvalid := valid_of_next_i0ValidWb (fpSound_run hw n).wb.gate hv
    exact (next_i0ValidWb hvalid).symm.trans hv

/-- What commits in E4 retires in the next cycle, and nothing else does. -/
theorem commits_iff_retires {m : DccmMem} {w : Nat → FpCpuIn}
    (hw : (machine m).Respects (fun s i => Env s i ∧ s.LoadsEnabled i) w) {t : Nat} :
    Commits m w t ↔ ∃ n, ∃ e ∈ (machine m).events FpCpu.retires w n, e.1 = t := by
  constructor
  · rintro ⟨n, hc, rfl⟩
    have hvalid := Tlu.valid_of_commit (Bool.and_eq_true_iff.mp hc).1
    have hv : ((machine m).run w (n + 1)).i0ValidWb = true := by
      rw [Machine.run_succ]
      exact (next_i0ValidWb hvalid).trans hc
    refine ⟨n + 2, (((machine m).run w (n + 1)).cpu.dec.wbd.seq, ((machine m).run w (n + 1)).effect (w (n + 1))), ?_, rfl⟩
    rw [Machine.events, retires, if_pos hv]
    exact List.mem_append_right _ List.mem_cons_self
  · rintro ⟨n, e, he, rfl⟩
    obtain ⟨k, -, hk⟩ := Machine.mem_events he
    obtain ⟨hv, rfl⟩ := mem_retires hk
    exact commits_of_i0ValidWb hw hv

end FpCpu

end SocRV
