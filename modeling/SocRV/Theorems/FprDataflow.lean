import SocRV.Core.FpOrder

/-!
# The floating-point registers are read in program order

There is no bypass into the floating-point registers.  What an operation or a store reads in decode is nevertheless
what the older instructions leave: a load in E1 to write-back that writes one of its operands holds it back, and an
operation of the unit is alone in the pipeline.
-/

namespace SocRV

namespace FpCpu

open Dec

variable {s : FpCpu} {i : FpCpuIn}

/-- `inst` is an operation or a store of the floating-point unit and reads `r`. -/
def ReadsFpr (inst : BitVec 32) (r : BitVec 5) : Prop :=
  (fpOp inst = true ∨ fpstore inst = true) ∧ (r = instRs1 inst ∨ r = instRs2 inst ∨ r = instRs3 inst)

/-- What is read of the floating-point registers in decode is, however long the run goes on, what the older of the
retired instructions leave, applied in program order; and what retires is exactly what commits. -/
def FprInOrder (m : DccmMem) (w : Nat → FpCpuIn) : Prop :=
  (∀ t N r, t ≤ N → ((machine m).run w t).i0DecodeD (w t) = true → ReadsFpr (w t).cpu.dec.i0.instr r →
    ((machine m).run w t).fpr r = (applied FpArch.step (machine m).reset.arch
      (olderThan t ((machine m).events FpCpu.retires w N))).fpr r) ∧
  (∀ N, ((machine m).events FpCpu.retires w N).Pairwise (fun e e' => e.1 < e'.1)) ∧
  ∀ t, Commits m w t ↔ ∃ N, ∃ e ∈ (machine m).events FpCpu.retires w N, e.1 = t

/-- Decode waits for the floating-point loads that write an operand. -/
theorem not_fprHazardStall (hd : s.i0DecodeD i = true) : s.fprHazardStall i.cpu.dec.i0.instr = false := by
  obtain ⟨hb, -⟩ := of_i0Decode hd
  simp only [i0BlockD, Bool.or_eq_false_iff] at hb
  have hhaz : (i.cpu.dec.i0Hazard || ((s.i0dp i).csrRead && s.priorCsrWrite) ||
      s.fprHazardStall i.cpu.dec.i0.instr) = false := hb.1.1.1.1.1
  exact (Bool.or_eq_false_iff.mp hhaz).2

/-- A load that does not hit an operand writes another register. -/
theorem instRd_ne_of_not_floadHits {inst loadInst : BitVec 32} {d : DestPkt} {r : BitVec 5}
    (h : floadHits inst d loadInst = false) (hv : d.i0valid = true)
    (hr : r = instRs1 inst ∨ r = instRs2 inst ∨ r = instRs3 inst) (hl : fpload loadInst = true) :
    instRd loadInst ≠ r := by
  rintro rfl
  simp only [floadHits, fload, hv, hl, Bool.and_self, Bool.true_and, Bool.or_eq_false_iff, beq_eq_false_iff_ne] at h
  rcases hr with hr | hr | hr
  · exact h.1.1 hr
  · exact h.1.2 hr
  · exact h.2 hr

/-- What is on its way in a cycle in which `r` is read does not load `r`. -/
theorem behind_of_readsFpr (h : FpSound s) (hd : s.i0DecodeD i = true) {r : BitVec 5}
    (hr : ReadsFpr i.cpu.dec.i0.instr r) :
    Behind s.cpu.dec.cycle (fun inst _ => fpload inst = true → instRd inst ≠ r) s := by
  have hstall := not_fprHazardStall hd
  rw [fprHazardStall, Bool.and_eq_false_iff] at hstall
  have hfp : (fpOp i.cpu.dec.i0.instr || fpstore i.cpu.dec.i0.instr) = true := Bool.or_eq_true_iff.mpr hr.1
  have hhits := hstall.resolve_left (by rw [hfp]; decide)
  simp only [Bool.or_eq_false_iff] at hhits
  obtain ⟨⟨⟨⟨h1, h2⟩, h3⟩, h4⟩, hw⟩ := hhits
  refine behind_of_decode h hd ⟨fun hv => ?_, fun hv => ?_, fun hv => ?_, fun hv => ?_⟩ fun hv _ _ => ?_
  · exact instRd_ne_of_not_floadHits h1 hv hr.2
  · exact instRd_ne_of_not_floadHits h2 hv hr.2
  · exact instRd_ne_of_not_floadHits h3 hv hr.2
  · exact instRd_ne_of_not_floadHits h4 hv hr.2
  · exact instRd_ne_of_not_floadHits hw (h.wb.valid hv).1 hr.2

/-- A CSR write leaves the floating-point registers. -/
theorem writeCsr_fpr (a : FpArch) (addr : BitVec 12) (data : BitVec 32) : (a.writeCsr addr data).fpr = a.fpr := by
  unfold FpArch.writeCsr
  split_ifs <;> rfl

/-- In every run in which no floating-point load is decoded with FS off, the floating-point registers are read in
program order. -/
theorem fpr_in_order {m : DccmMem} {w : Nat → FpCpuIn}
    (hw : (machine m).Respects (fun s i => Env s i ∧ s.LoadsEnabled i) w) : FprInOrder m w := by
  refine ⟨fun t N r hN hd hr => ?_, retires_in_order hw, fun t => commits_iff_retires hw⟩
  refine read_at_decode hw (fun a => a.fpr r) hN (behind_of_readsFpr (fpSound_run hw t) hd hr)
    (fun inst _ hne hload a data ha => ?_) (fun _ _ _ _ a data ha => ?_)
  · have hstep : (a.step (.load (instRd inst) data)).fpr = Function.update a.fpr (instRd inst) data := rfl
    rw [hstep, Function.update_of_ne (hne hload).symm]
    exact ha
  · rw [writeCsr_fpr]
    exact ha

/-- `csrw mstatus, t0` with FS initial, `flw f1, 0(ra)`, `fadd.s f2, f1, f1` presented until it is decoded, its answer,
and `fsw f2, 4(ra)`. -/
def loadAddStore : List FpCpuIn :=
  [present 0x30029073, {}, {}, {}, idleWith 0x2000, {}, {}, present 0x0000a087, present 0x00108153,
    present 0x00108153, present 0x00108153, { present 0x00108153 with i0ResultE4Final := 0xbeef },
    present 0x00108153, present 0x00108153, { cpu := { fpu := { fpInReady := true } } },
    { fpResult := 0xf00d, cpu := { fpu := { fpOutValid := true, fpTag := 0x22 } } }, {}, present 0x0020a227]

/-- The addition waits until the load has written, and the store until the addition has. -/
example : (List.range 18).map (fun n => ((machine blankDccm).run (loadAddStore.getD · {}) n).i0DecodeD
    (loadAddStore.getD n {})) = [true, false, false, false, false, false, false, true, false, false, false, false,
    false, true, false, false, false, true] := by
  decide +kernel

theorem fpr_in_order_loadAddStore :
    ((machine blankDccm).run (loadAddStore.getD · {}) 13).fpr 1 = 0xbeef ∧
    ((machine blankDccm).run (loadAddStore.getD · {}) 17).fpr 2 = 0xf00d ∧
    FprInOrder blankDccm (loadAddStore.getD · {}) := by
  refine ⟨by decide +kernel, by decide +kernel, fpr_in_order ?_⟩
  refine Machine.respects_getD ?_ fun s => ⟨⟨rfl, rfl, nofun⟩, fun h => ?_⟩
  · decide +kernel
  · cases h

end FpCpu

end SocRV
