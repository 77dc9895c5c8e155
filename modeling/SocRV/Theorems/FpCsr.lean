import SocRV.Core.CsrOrder

/-!
# The CSRs with floating-point state are read in program order

A read of `fflags`, `frm` or `fcsr` and every floating-point instruction see in decode what the older instructions
leave.  A read of `mstatus` does so unless a floating-point load is on its way that still has to make the state dirty:
`mstatus` is not among the CSRs that wait for the older instructions.
-/

namespace SocRV

/-- `dec_csr_rddata_d` of the CSRs with floating-point state, of the state a programmer sees. -/
def FpArch.rddata (a : FpArch) (addr : BitVec 12) : BitVec 32 :=
  if addr = csrFflags then a.fflags.zeroExtend 32
  else if addr = csrFrm then a.frm.zeroExtend 32
  else if addr = csrFcsr then (a.frm ++ a.fflags).zeroExtend 32
  else BitVec.ofBool (a.fs == 3) ++ 0#16 ++ a.fs ++ 0#13

namespace FpCpu

open DestPkt Dec

variable {s : FpCpu} {i : FpCpuIn}

/-- The CSRs with floating-point state. -/
def fpCsrs : List (BitVec 12) := [csrMstatus, csrFflags, csrFrm, csrFcsr]

/-- A CSR read is decoded. -/
def decodesRead (s : FpCpu) (i : FpCpuIn) : Bool := s.i0DecodeD i && (s.i0dp i).csrRead

/-- A floating-point instruction is decoded as legal. -/
def decodesFp (s : FpCpu) (i : FpCpuIn) : Bool :=
  s.i0LegalDecodeD i && ((s.i0dp i).fpu || (s.i0dp i).fpload || (s.i0dp i).fpstore)

/-- The state the instructions older than cycle `t` leave that retire before cycle `n`. -/
def olderState (m : DccmMem) (w : Nat → FpCpuIn) (t n : Nat) : FpArch :=
  applied FpArch.step (machine m).reset.arch (olderThan t ((machine m).events FpCpu.retires w n))

/-- A CSR read that commits returns what the older instructions leave, however long the run goes on, and a
floating-point instruction that commits was decoded with the FS and the `frm` they leave; what retires is exactly what
commits, in program order. -/
def FpCsrInOrder (m : DccmMem) (w : Nat → FpCpuIn) : Prop :=
  (∀ t n, t ≤ n → Commits m w t → ((machine m).run w t).decodesRead (w t) = true → csrAddr (w t) ∈ fpCsrs →
    ((machine m).run w t).csrRddata (csrAddr (w t)) = (olderState m w t n).rddata (csrAddr (w t))) ∧
  (∀ t n, t ≤ n → Commits m w t → ((machine m).run w t).decodesFp (w t) = true →
    (olderState m w t n).fs ≠ 0 ∧ (((machine m).run w t).i0dp (w t)).legal = true ∧
      ((((machine m).run w t).i0dp (w t)).fpu = true →
        ((machine m).run w t).mstatusFs = (olderState m w t n).fs ∧
          ((machine m).run w t).frm = (olderState m w t n).frm)) ∧
  (∀ n, ((machine m).events FpCpu.retires w n).Pairwise (fun e e' => e.1 < e'.1)) ∧
  ∀ t, Commits m w t ↔ ∃ n, ∃ e ∈ (machine m).events FpCpu.retires w n, e.1 = t

/-- A floating-point load is in E1 to write-back. -/
def floadInFlight (s : FpCpu) : Bool :=
  fload s.cpu.dec.e1d s.i0InstE1 || fload s.cpu.dec.e2d s.i0InstE2 || fload s.cpu.dec.e3d s.i0InstE3 ||
    fload s.cpu.dec.e4d s.i0InstE4 || fload s.cpu.dec.wbd s.i0InstWb

/-- `mstatus` is read in decode only when FS is dirty or no floating-point load is on its way. -/
def MstatusSettled (s : FpCpu) (i : FpCpuIn) : Prop :=
  s.decodesRead i = true → csrAddr i = csrMstatus → s.mstatusFs = 3 ∨ s.floadInFlight = false

instance (s : FpCpu) (i : FpCpuIn) : Decidable (s.MstatusSettled i) := inferInstanceAs (Decidable (_ → _ → _))

/-! ## What is on its way -/

/-- A CSR read waits for the CSR instructions that only write, and the others hold it back. -/
theorem not_wen_of_decodesRead (hh : Held s) (hd : s.decodesRead i = true) :
    InPipe (fun p => p.csr.wen = false) s ∧ (s.cpu.dec.wbd.i0valid = true → s.csrWb.wen = false) := by
  obtain ⟨hdec, hread⟩ := Bool.and_eq_true_iff.mp hd
  obtain ⟨hpipe, hwb⟩ := hh.not_holds hdec
  obtain ⟨hb, -⟩ := of_i0Decode hdec
  simp only [i0BlockD, Bool.or_eq_false_iff] at hb
  have hhaz : (i.cpu.dec.i0Hazard || ((s.i0dp i).csrRead && s.priorCsrWrite) ||
      s.fprHazardStall i.cpu.dec.i0.instr) = false := hb.1.1.1.1.1
  rw [hread, Bool.true_and, Bool.or_eq_false_iff, Bool.or_eq_false_iff] at hhaz
  have hprior := hhaz.1.2
  simp only [priorCsrWrite, Bool.or_eq_false_iff] at hprior
  obtain ⟨⟨⟨⟨h1, h2⟩, h3⟩, h4⟩, hw⟩ := hprior
  have hno : ∀ {c : CsrPkt}, c.wonly = false → ¬Holds c → c.wen = false := fun ho hn => by
    by_contra hwen
    rw [Bool.not_eq_false] at hwen
    exact hn ⟨hwen, Or.inl ho⟩
  exact ⟨⟨fun hv => hno h1 (hpipe.e1 hv), fun hv => hno h2 (hpipe.e2 hv), fun hv => hno h3 (hpipe.e3 hv),
    fun hv => hno h4 (hpipe.e4 hv)⟩, fun hv => hno hw (hwb hv)⟩

/-- What is on its way in a cycle in which a CSR is read: no CSR write, and a floating-point load only when it does not
show. -/
theorem behind_of_decodesRead (h : FpSound s) (hh : Held s) (hm : s.MstatusSettled i) (hd : s.decodesRead i = true) :
    Behind s.cpu.dec.cycle (fun inst csr => csr.wen = false ∧
      (fpload inst = true → csrAddr i ≠ csrMstatus ∨ s.mstatusFs = 3)) s := by
  obtain ⟨hpipe, hwb⟩ := not_wen_of_decodesRead hh hd
  have hload : ∀ {d : DestPkt} {inst : BitVec 32}, (s.floadInFlight = false → fload d inst = false) →
      d.i0valid = true → fpload inst = true → csrAddr i ≠ csrMstatus ∨ s.mstatusFs = 3 := by
    intro d inst hf hv hl
    by_contra hno
    rw [not_or, not_not] at hno
    have hoff := hf ((hm hd hno.1).resolve_left hno.2)
    simp [fload, hv, hl] at hoff
  simp only [floadInFlight, Bool.or_eq_false_iff] at hload
  refine behind_of_decode h (Bool.and_eq_true_iff.mp hd).1
    ⟨fun hv => ⟨hpipe.e1 hv, hload (fun hf => hf.1.1.1.1) hv⟩, fun hv => ⟨hpipe.e2 hv, hload (fun hf => hf.1.1.1.2) hv⟩,
      fun hv => ⟨hpipe.e3 hv, hload (fun hf => hf.1.1.2) hv⟩, fun hv => ⟨hpipe.e4 hv, hload (fun hf => hf.1.2) hv⟩⟩
    fun hv _ _ => ?_
  have hvalid := (h.wb.valid hv).1
  exact ⟨hwb hvalid, hload (fun hf => hf.2) hvalid⟩

/-- The CSRs other than `mstatus` do not show FS. -/
theorem rddata_fs {addr : BitVec 12} (haddr : addr ∈ fpCsrs) (hne : addr ≠ csrMstatus) (a : FpArch)
    (fpr : BitVec 5 → BitVec 32) (fs : BitVec 2) : ({ a with fpr := fpr, fs := fs } : FpArch).rddata addr = a.rddata addr := by
  simp only [fpCsrs, List.mem_cons, List.not_mem_nil, or_false] at haddr
  unfold FpArch.rddata
  rcases haddr.resolve_left hne with h | h | h
  · rw [if_pos h, if_pos h]
  · have h1 : addr ≠ csrFflags := by rw [h]; decide
    rw [if_neg h1, if_pos h, if_neg h1, if_pos h]
  · have h1 : addr ≠ csrFflags := by rw [h]; decide
    have h2 : addr ≠ csrFrm := by rw [h]; decide
    rw [if_neg h1, if_neg h2, if_pos h, if_neg h1, if_neg h2, if_pos h]

/-- Of `mstatus` only FS shows. -/
theorem rddata_mstatus (a : FpArch) :
    a.rddata csrMstatus = BitVec.ofBool (a.fs == 3) ++ 0#16 ++ a.fs ++ 0#13 := by
  unfold FpArch.rddata
  rw [if_neg (by decide), if_neg (by decide), if_neg (by decide)]

/-- A floating-point load changes of the CSRs only FS. -/
theorem rddata_load {a b : FpArch} {addr : BitVec 12} (haddr : addr ∈ fpCsrs) (rd : BitVec 5) (data : BitVec 32)
    (hfs : addr ≠ csrMstatus ∨ b.fs = 3) (hab : a.rddata addr = b.rddata addr) :
    (a.step (.load rd data)).rddata addr = b.rddata addr := by
  by_cases hm : addr = csrMstatus
  · have hb := hfs.resolve_left (fun hne => hne hm)
    rw [hm, rddata_mstatus, rddata_mstatus, hb]
    rfl
  · exact (rddata_fs haddr hm a _ _).trans hab

/-- Only a write to `mstatus` turns FS off. -/
theorem fs_writeCsr {a : FpArch} {addr : BitVec 12} (data : BitVec 32) (haddr : addr ≠ csrMstatus)
    (ha : (a.fs != 0) = true) : ((a.writeCsr addr data).fs != 0) = true := by
  unfold FpArch.writeCsr
  rw [if_neg haddr]
  split_ifs
  · rfl
  · rfl
  · rfl
  · exact ha

/-- A decoded floating-point instruction is legal. -/
theorem legal_of_decodesFp (hd : s.decodesFp i = true) : (s.i0dp i).legal = true := by
  have hdp : Dec.i0dp (s.decIn i) = s.i0dp i := rfl
  have hleg := i0Legal_dp (Bool.and_eq_true_iff.mp hd).1
  rw [hdp] at hleg
  exact hleg

/-- An operation of the unit waits for the older instructions. -/
theorem presync_of_fpu (hfpu : (s.i0dp i).fpu = true) : i0Presync (s.decIn i) = true ∧ (s.i0dp i).div = false := by
  have hdp : Dec.i0dp (s.decIn i) = s.i0dp i := rfl
  have hwf := (i0dp_wf (i := s.decIn i)).fpu
  rw [hdp] at hwf
  obtain ⟨-, hdiv, hpre, -⟩ := hwf hfpu
  refine ⟨?_, hdiv⟩
  rw [i0Presync, hdp, hpre, Bool.true_or, Bool.true_or]

/-- A floating-point instruction is legal only with FS on. -/
theorem fs_of_decodesFp (hd : s.decodesFp i = true) : (s.arch.fs != 0) = true := by
  have hkind := (Bool.and_eq_true_iff.mp hd).2
  have hleg := legal_of_decodesFp hd
  have hon : s.fpEnabled = true := by
    unfold FpCpu.i0dp Dec.i0dp i0Dp at hkind hleg
    split_ifs at hkind hleg
    · cases hkind
    · exact (Bool.and_eq_true_iff.mp hleg).1
    · exact hleg
    · exact hleg
    · cases hkind
  exact hon

/-- What is on its way next to decode does not turn FS off. -/
theorem behind_of_decodesFp (h : FpSound s) (hh : Held s) (hd : s.decodesFp i = true) :
    Behind s.cpu.dec.cycle (fun _ csr => csr.wen = true → csr.waddr ≠ csrMstatus) s := by
  have hdec : s.i0DecodeD i = true := legalDecode_decode (Bool.and_eq_true_iff.mp hd).1
  obtain ⟨hpipe, hwb⟩ := hh.not_holds hdec
  have hno : ∀ {c : CsrPkt}, ¬Holds c → c.wen = true → c.waddr ≠ csrMstatus :=
    fun hn hwen haddr => hn ⟨hwen, Or.inr haddr⟩
  exact behind_of_decode h hdec
    ⟨fun hv => hno (hpipe.e1 hv), fun hv => hno (hpipe.e2 hv), fun hv => hno (hpipe.e3 hv),
      fun hv => hno (hpipe.e4 hv)⟩ fun hv _ _ => hno (hwb (h.wb.valid hv).1)

/-- In every run in which no floating-point load is decoded with FS off, and `mstatus` is read only when FS is dirty or
no floating-point load is on its way, the CSRs with floating-point state are read in program order. -/
theorem fp_csr_in_order {m : DccmMem} {w : Nat → FpCpuIn}
    (hw : (machine m).Respects (fun s i => (Env s i ∧ s.LoadsEnabled i) ∧ s.MstatusSettled i) w) :
    FpCsrInOrder m w := by
  have hw' : (machine m).Respects (fun s i => Env s i ∧ s.LoadsEnabled i) w := fun n => (hw n).1
  refine ⟨fun t n hn _ hd haddr => ?_, fun t n hn _ hd => ?_, retires_in_order hw', fun t => commits_iff_retires hw'⟩
  · refine read_at_decode hw' (fun a => a.rddata (csrAddr (w t))) hn
      (behind_of_decodesRead (fpSound_run hw' t) (held_run hw' t) (hw t).2 hd)
      (fun inst csr hQ hload a data ha => ?_) (fun inst csr hQ hwen => ?_)
    · exact rddata_load haddr (instRd inst) data (hQ.2 hload) ha
    · rw [hQ.1] at hwen
      cases hwen
  · obtain ⟨hlegal, -⟩ := Bool.and_eq_true_iff.mp hd
    have hfs := fs_of_decodesFp hd
    have horder := read_at_decode hw' (fun a => a.fs != 0) hn
      (behind_of_decodesFp (fpSound_run hw' t) (held_run hw' t) hd)
      (fun _ _ _ _ a data _ => hfs.symm) (fun _ _ hne hwen a data ha => ?_)
    · refine ⟨fun hoff => ?_, legal_of_decodesFp hd, fun hfpu => ?_⟩
      · have hon : ((olderState m w t n).fs != 0) = true := horder.symm.trans hfs
        rw [hoff] at hon
        cases hon
      · obtain ⟨hpre, hdiv⟩ := presync_of_fpu hfpu
        have hall := read_at_decode hw' (fun a => a) hn
          (behind_of_presync (Q := fun _ _ => False) (fpSound_run hw' t) (legalDecode_decode hlegal) hpre hdiv)
          (fun _ _ hno => hno.elim) (fun _ _ hno => hno.elim)
        exact ⟨congrArg FpArch.fs hall, congrArg FpArch.frm hall⟩
    · exact (fs_writeCsr data (hne hwen) (ha.trans hfs)).trans hfs.symm

/-- `csrw mstatus, t0` with FS initial, `flw f1, 0(ra)`, and `csrr t1, mstatus` right behind it. -/
def readBehindLoad : List FpCpuIn :=
  [present 0x30029073, {}, {}, {}, idleWith 0x2000, {}, {}, present 0x0000a087, present 0x30002373, {}, {},
    idleWith 0xbeef]

/-- The read is decoded in cycle 8. -/
example : ((machine blankDccm).run (readBehindLoad.getD · {}) 8).decodesRead (present 0x30002373) = true := by
  decide +kernel

/-- The read returns FS initial, the load commits before it and makes FS dirty. -/
theorem mstatus_stale_behind_flw :
    ¬FpCsrInOrder blankDccm (readBehindLoad.getD · {}) ∧
    ((machine blankDccm).run (readBehindLoad.getD · {}) 8).csrRddata csrMstatus = 0x2000 ∧
    ((machine blankDccm).run (readBehindLoad.getD · {}) 11).commitsE4 (idleWith 0xbeef) = true ∧
    ((machine blankDccm).run (readBehindLoad.getD · {}) 12).cpu.dec.wbd.seq = 7 ∧
    ((machine blankDccm).run (readBehindLoad.getD · {}) 12).commitsE4 {} = true ∧
    ((machine blankDccm).run (readBehindLoad.getD · {}) 13).cpu.dec.wbd.seq = 8 ∧
    (olderState blankDccm (readBehindLoad.getD · {}) 8 13).rddata csrMstatus = 0x80006000 := by
  refine ⟨fun h => ?_, by decide +kernel⟩
  have hread := h.1 8 13 (by decide) ⟨12, by decide +kernel, by decide +kernel⟩ (by decide +kernel) (by decide +kernel)
  exact absurd hread (by decide +kernel)

/-- The same read when the load has retired. -/
def readAfterLoad : List FpCpuIn :=
  [present 0x30029073, {}, {}, {}, idleWith 0x2000, {}, {}, present 0x0000a087, {}, {}, {}, idleWith 0xbeef, {},
    present 0x30002373]

theorem fp_csr_in_order_readAfterLoad :
    ((machine blankDccm).run (readAfterLoad.getD · {}) 13).decodesRead (present 0x30002373) = true ∧
    ((machine blankDccm).run (readAfterLoad.getD · {}) 13).csrRddata csrMstatus = 0x80006000 ∧
    FpCsrInOrder blankDccm (readAfterLoad.getD · {}) := by
  refine ⟨by decide +kernel, by decide +kernel, fp_csr_in_order ?_⟩
  refine Machine.respects_getD ?_ fun s => ⟨⟨⟨rfl, rfl, nofun⟩, fun h => ?_⟩, fun h => ?_⟩
  · decide +kernel
  · cases h
  · cases h

end FpCpu

end SocRV
