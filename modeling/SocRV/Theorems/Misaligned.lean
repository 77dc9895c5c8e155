import SocRV.Core.BranchArch

/-!
# Misaligned targets and the prediction

A branch or a jump in E4 whose target is misaligned is reported as such however it was predicted, except a conditional
branch that was rightly predicted taken: for it the ALU has the way behind the branch at hand and not the target, and
the report goes by the wrong one of the two.
-/

namespace SocRV

namespace Cpu

open Dec

variable (m : DccmMem) (w : Nat → CpuIn) (n : Nat)

/-- The ports of decode in the cycle in which the pair in E4 was decoded. -/
def decodeE4 : DecIn :=
  let t := ((machine m).run w n).dec.e4d.seq
  ((machine m).run w t).decIn (w t)

/-- The instruction in E4 of slot `i0`, with the operands of the ALU that resolves it. -/
def branch0 : BranchInst :=
  let t := ((machine m).run w n).dec.e4d.seq
  { x := (decodeE4 m w n).i0
    leak1 := (decodeE4 m w n).leak1Mode
    a := if lateOf m w .i0 t then (portsOf m w .i0 (n - 1)).lateA else (portsOf m w .i0 t).a
    b := if lateOf m w .i0 t then (portsOf m w .i0 (n - 1)).lateB else (portsOf m w .i0 t).b }

/-- The instruction in E4 of slot `i1`. -/
def branch1 : BranchInst :=
  let t := ((machine m).run w n).dec.e4d.seq
  { x := (decodeE4 m w n).i1
    leak1 := false
    a := if lateOf m w .i1 t then (portsOf m w .i1 (n - 1)).lateA else (portsOf m w .i1 t).a
    b := if lateOf m w .i1 t then (portsOf m w .i1 (n - 1)).lateB else (portsOf m w .i1 t).b }

/-- A legal branch or jump is valid in E4 of slot `i0`. -/
def branchInE4I0 : Bool :=
  let dp := Dec.i0dp (decodeE4 m w n)
  ((machine m).run w n).dec.e4d.i0valid && !((machine m).run w n).flushLowerWb && dp.legal && (dp.condbr || dp.jal)

/-- A legal branch or jump is valid in E4 of slot `i1`. -/
def branchInE4I1 : Bool :=
  let dp := Dec.i1dp (decodeE4 m w n)
  ((machine m).run w n).dec.e4d.i1valid && !((machine m).run w n).flushLowerWb && dp.legal && (dp.condbr || dp.jal)

/-- `exu_i0_inst_misaligned_e4`. -/
def misalignedI0 : Bool := (((machine m).run w n).tluIn (w n)).i0InstMisalignedE4

/-- `exu_i1_inst_misaligned_e4`. -/
def misalignedI1 : Bool := (((machine m).run w n).tluIn (w n)).i1InstMisalignedE4

/-- A branch or jump that is valid in E4 is reported exactly when it is taken to a misaligned target. -/
def MisalignedExact : Prop :=
  ∀ n, (branchInE4I0 m w n = true → misalignedI0 m w n = (branch0 m w n).misaligned) ∧
    (branchInE4I1 m w n = true → misalignedI1 m w n = (branch1 m w n).misaligned)

variable {m w n}

/-- The ports of slot `i0` in the cycle of decode are those of its instruction. -/
theorem fits_branch0 (h : branchInE4I0 m w n = true) :
    (branch0 m w n).Fits (portsOf m w .i0 ((machine m).run w n).dec.e4d.seq) := by
  simp only [branchInE4I0, Bool.and_eq_true, Bool.or_eq_true] at h
  obtain ⟨⟨-, hl⟩, hb⟩ := h
  have hdp : Dec.i0dp (decodeE4 m w n) = (branch0 m w n).dp := i0Dp_of_branch hb
  rw [hdp] at hl hb
  refine ⟨hb, hl, ?_, ?_, rfl, ?_⟩
  · rw [← hdp]
    rfl
  · rw [← hdp]
    rfl
  · rw [← hdp]
    rfl

/-- The ports of slot `i1` in the cycle of decode are those of its instruction. -/
theorem fits_branch1 (h : branchInE4I1 m w n = true) :
    (branch1 m w n).Fits (portsOf m w .i1 ((machine m).run w n).dec.e4d.seq) := by
  simp only [branchInE4I1, Bool.and_eq_true, Bool.or_eq_true] at h
  obtain ⟨⟨-, hl⟩, hb⟩ := h
  have hdp : Dec.i1dp (decodeE4 m w n) = (branch1 m w n).dp := i1Dp_of_branch hb
  rw [hdp] at hl hb
  refine ⟨hb, hl, ?_, ?_, rfl, ?_⟩
  · rw [← hdp]
    rfl
  · rw [← hdp]
    rfl
  · rw [← hdp]
    rfl

/-- The report of slot `i0` is right exactly when the prediction does not hide the target. -/
theorem misalignedI0_iff (h : branchInE4I0 m w n = true) :
    misalignedI0 m w n = (branch0 m w n).misaligned ↔ (branch0 m w n).hidden = false := by
  have hfit := fits_branch0 h
  simp only [branchInE4I0, Bool.and_eq_true, Bool.or_eq_true, Bool.not_eq_true'] at h
  obtain ⟨⟨⟨hv, hfl⟩, hl⟩, hb⟩ := h
  have hdp : Dec.i0dp (decodeE4 m w n) = (branch0 m w n).dp := i0Dp_of_branch hb
  obtain ⟨halu, -, hread, hwrite⟩ := hfit.kinds
  rw [← hdp] at halu hread hwrite
  obtain ⟨hd, hin⟩ := inE4_i0_run m w n hv
  have hres := i0AluDecodeD_eq hd hl halu hread hwrite
  have hrep : misalignedI0 m w n = _ := hin.instMisalignedE4 (i := portsOf m w .i0 n) hres hfl
  rw [hrep]
  exact hfit.misaligned_iff ExuSlot.resolver_aFf ExuSlot.resolver_bFf

@[inherit_doc misalignedI0_iff]
theorem misalignedI1_iff (h : branchInE4I1 m w n = true) :
    misalignedI1 m w n = (branch1 m w n).misaligned ↔ (branch1 m w n).hidden = false := by
  have hfit := fits_branch1 h
  simp only [branchInE4I1, Bool.and_eq_true, Bool.or_eq_true, Bool.not_eq_true'] at h
  obtain ⟨⟨⟨hv, hfl⟩, hl⟩, hb⟩ := h
  have hdp : Dec.i1dp (decodeE4 m w n) = (branch1 m w n).dp := i1Dp_of_branch hb
  have halu := hfit.kinds.1
  rw [← hdp] at halu
  obtain ⟨hd, hin⟩ := inE4_i1_run m w n hv
  have hres := i1AluDecodeD_eq hd halu
  have hrep : misalignedI1 m w n = _ := hin.instMisalignedE4 (i := portsOf m w .i1 n) hres hfl
  rw [hrep]
  exact hfit.misaligned_iff ExuSlot.resolver_aFf ExuSlot.resolver_bFf

/-- No branch in E4 has a target that its prediction hides. -/
def NoneHidden (m : DccmMem) (w : Nat → CpuIn) : Prop :=
  ∀ n, (branchInE4I0 m w n = true → (branch0 m w n).hidden = false) ∧
    (branchInE4I1 m w n = true → (branch1 m w n).hidden = false)

/-- In a run the reports are right exactly when no conditional branch gets to E4 that is taken, was predicted so, and
whose offset differs in bit 1 from the length of an instruction. -/
theorem misalignedExact_iff (m : DccmMem) (w : Nat → CpuIn) : MisalignedExact m w ↔ NoneHidden m w := by
  constructor
  · intro h n
    exact ⟨fun hb => (misalignedI0_iff hb).mp ((h n).1 hb), fun hb => (misalignedI1_iff hb).mp ((h n).2 hb)⟩
  · intro h n
    exact ⟨fun hb => (misalignedI0_iff hb).mpr ((h n).1 hb), fun hb => (misalignedI1_iff hb).mpr ((h n).2 hb)⟩

/-- `beq x0, x0, .+6` at address `0x80`, as the branch predictor may know it. -/
def presentBeq (hit : Bool) : CpuIn :=
  { dec := { i0 := { valid := true, instr := 0x00000363, pc := 0x40,
                     brp := { valid := hit, hist1 := hit, toffset := 3 } } } }

/-- The branch when the predictor does not know it. -/
def coldBranch : List CpuIn := [presentBeq false]

/-- Without a prediction it is reported in E4, in cycle 4. -/
example : (List.range 6).map (misalignedI0 { bankMem := fun _ _ => 0 } (coldBranch.getD · {})) =
    [false, false, false, false, true, false] := by
  decide +kernel

/-- The branch when the predictor knows that it is taken. -/
def predictedBranch : List CpuIn := [presentBeq true]

/-- The branch is taken to address `0x86`, as predicted, and no misaligned target is reported in E4. -/
theorem predictedBranch_not_reported :
    ¬MisalignedExact { bankMem := fun _ _ => 0 } (predictedBranch.getD · {}) ∧
    branchInE4I0 { bankMem := fun _ _ => 0 } (predictedBranch.getD · {}) 4 = true ∧
    (branch0 { bankMem := fun _ _ => 0 } (predictedBranch.getD · {}) 4).taken = true ∧
    (branch0 { bankMem := fun _ _ => 0 } (predictedBranch.getD · {}) 4).target = 0x43 ∧
    misalignedI0 { bankMem := fun _ _ => 0 } (predictedBranch.getD · {}) 4 = false := by
  refine ⟨fun h => ?_, by decide +kernel⟩
  have hflag := (h 4).1 (by decide +kernel)
  revert hflag
  decide +kernel

end Cpu

end SocRV
