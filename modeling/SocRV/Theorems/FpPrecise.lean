import SocRV.Core.FpRetire

/-!
# Precise floating-point state

As long as no floating-point load is decoded while FS is off, an instruction that does not commit writes no
floating-point register and no floating-point CSR, and the state is what the instructions leave that do.  A load that
is decoded with FS off is illegal and traps, but its write-back goes by its instruction bits and is not killed: it
writes its register and makes the state dirty.
-/

namespace SocRV

namespace FpCpu

variable {s : FpCpu} {i : FpCpuIn}

/-- One of the write enables of the floating-point state is raised: `fpr_wen`, `dec_fpu_fflags_valid`, `dec_fpu_dirty`,
or the one of the CSRs. -/
def raisesWrite (s : FpCpu) : Bool := s.fprWen || s.fpuFflagsValid || s.fpuDirty || s.csrWenWbMod

/-- No write enable is raised on behalf of an instruction that does not commit; what retires commits, and the state is
what it leaves. -/
def PreciseFp (m : DccmMem) (w : Nat → FpCpuIn) : Prop :=
  (∀ t, ¬Commits m w t → ∀ n, ((machine m).run w n).cpu.dec.wbd.seq = t → ((machine m).run w n).raisesWrite = false) ∧
  (∀ n, ∀ e ∈ (machine m).events FpCpu.retires w n, Commits m w e.1) ∧
  ∀ n, ((machine m).run w n).arch =
    applied FpArch.step (machine m).reset.arch ((machine m).events FpCpu.retires w n)

/-- In every run in which no floating-point load is decoded with FS off, the floating-point state is precise.  The
debugger is not connected, and `fpnew` answers only what it has accepted, with its tag. -/
theorem fp_precise {m : DccmMem} {w : Nat → FpCpuIn}
    (hw : (machine m).Respects (fun s i => Env s i ∧ s.LoadsEnabled i) w) : PreciseFp m w := by
  refine ⟨fun t ht n hn => ?_, fun n e he => ?_, arch_run hw⟩
  · have hv : ((machine m).run w n).i0ValidWb = false := by
      by_contra hv
      rw [Bool.not_eq_false] at hv
      exact ht (hn ▸ commits_of_i0ValidWb hw hv)
    obtain ⟨hfpr, hfl, hcsr⟩ := (fpSound_run hw n).quiet hv
    rw [raisesWrite, fpuDirty, hfpr, hfl, hcsr]
    rfl
  · exact (commits_iff_retires hw).mpr ⟨n, e, he, rfl⟩

/-- `flw f1, 0(ra)`, the first instruction after reset, and the word it loads. -/
def loadWithFsOff : List FpCpuIn := [present 0x0000a087, {}, {}, {}, idleWith 0xdead]

/-- The load is not legal, and it never commits. -/
example : (List.range 8).map (fun n => ((machine blankDccm).run (loadWithFsOff.getD · {}) n).commitsE4
    (loadWithFsOff.getD n {})) = List.replicate 8 false := by
  decide +kernel

/-- In cycle 5 the load that did not commit writes `f1` and makes the state dirty. -/
theorem illegal_flw_writes :
    ¬PreciseFp blankDccm (loadWithFsOff.getD · {}) ∧
    ((machine blankDccm).run (loadWithFsOff.getD · {}) 4).commitsE4 (idleWith 0xdead) = false ∧
    ((machine blankDccm).run (loadWithFsOff.getD · {}) 5).cpu.dec.wbd.seq = 0 ∧
    ((machine blankDccm).run (loadWithFsOff.getD · {}) 5).fprWen = true ∧
    ((machine blankDccm).run (loadWithFsOff.getD · {}) 5).fpuDirty = true ∧
    ((machine blankDccm).run (loadWithFsOff.getD · {}) 6).fpr 1 = 0xdead ∧
    ((machine blankDccm).run (loadWithFsOff.getD · {}) 6).mstatusFs = 3 := by
  refine ⟨fun h => ?_, by decide +kernel⟩
  have hfs := congrArg FpArch.fs (h.2.2 6)
  exact absurd hfs (by decide +kernel)

/-- `csrw mstatus, t0` with FS initial, and `flw f1, 0(ra)` behind it. -/
def loadWithFsOn : List FpCpuIn :=
  [present 0x30029073, {}, {}, {}, idleWith 0x2000, {}, {}, present 0x0000a087, {}, {}, {}, idleWith 0xbeef]

/-- Here the load is legal, commits and writes `f1`. -/
theorem fp_precise_loadWithFsOn :
    ((machine blankDccm).run (loadWithFsOn.getD · {}) 11).commitsE4 (idleWith 0xbeef) = true ∧
    ((machine blankDccm).run (loadWithFsOn.getD · {}) 13).fpr 1 = 0xbeef ∧
    PreciseFp blankDccm (loadWithFsOn.getD · {}) := by
  refine ⟨by decide +kernel, by decide +kernel, fp_precise ?_⟩
  refine Machine.respects_getD ?_ fun s => ⟨⟨rfl, rfl, nofun⟩, fun h => ?_⟩
  · decide +kernel
  · cases h

end FpCpu

end SocRV
