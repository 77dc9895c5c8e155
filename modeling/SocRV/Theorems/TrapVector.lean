import SocRV.Core.E4Pair

/-!
# The trap vector

An exception goes to the base of the trap vector, and the address is not mixed with another one, unless the pair of the
exception also mispredicts.  A target that is misaligned is found in E4 next to the misprediction that the secondary ALU
reports for the same branch; both select their source, and the flush goes to the union of the two addresses.
-/

namespace SocRV

namespace Cpu

variable (m : DccmMem) (w : Nat → CpuIn) (x : Nat → FlushPathIn) (n : Nat)

/-- What the address of the flush depends on: the paths of the two branches come from the secondary ALUs, and decode
says which slot holds a load; the rest is that of `x`. -/
def flushPathIn : FlushPathIn :=
  let s := (machine m).run w n
  { x n with
    i0FlushPathE4 := s.exu.i0.aluE4.flushPath s.exu.i0.apE4
    i1FlushPathE4 := s.exu.i1.aluE4.flushPath s.exu.i1.apE4
    i0LoadE4 := s.dec.e4d.i0load }

/-- The address of the flush is well defined in cycle `n`. -/
def TrapVectorExact : Prop :=
  ((machine m).run w n).tlu.PathExact (((machine m).run w n).tluIn (w n)) (flushPathIn m w x n)

/-- No misprediction next to a misaligned target, no fault in a frozen cycle whose instruction is fetched again, and no
wake-up from a halt in cycle `n`. -/
def FlushClean : Prop :=
  ((machine m).run w n).tlu.Clean (((machine m).run w n).tluIn (w n)) (flushPathIn m w x n)

/-- The triggers, the wake-ups and the debugger are connected to the trap unit in cycle `n`. -/
def FlushWired : Prop :=
  ((machine m).run w n).tlu.Wired (((machine m).run w n).tluIn (w n)) (flushPathIn m w x n)

variable {m w x}

/-- In every cycle of a run at most one source of the flush path is selected and an exception goes to the base of the
trap vector exactly when the cycle is clean. -/
theorem trapVectorExact_iff (ha : (machine m).Respects (fun s i => s.fpu.Answers i.fpu) w)
    (hw : ∀ n, FlushWired m w x n) : ∀ n, TrapVectorExact m w x n ↔ FlushClean m w x n := by
  intro n
  exact Tlu.pathExact_iff (oneCause_run ha) (hw n)

/-- If no trigger is enabled and nothing but a vector is set, there is nothing to connect. -/
theorem flushWired_of_quiet {n : Nat} {v : BitVec 31} (hw : (w n).tlu = {}) (hx : x n = { mtvec := v }) :
    FlushWired m w x n := by
  have hen : (flushPathIn m w x n).triggerEnabled = 0#4 := congrArg FlushPathIn.triggerEnabled hx
  have hrun : (flushPathIn m w x n).cpuRunReqD1 = false := congrArg FlushPathIn.cpuRunReqD1 hx
  have hpause : (flushPathIn m w x n).pauseExpiredE4 = false := congrArg FlushPathIn.pauseExpiredE4 hx
  have hdebug : (flushPathIn m w x n).debugResumeReqF = false := congrArg FlushPathIn.debugResumeReqF hx
  have hwr : (flushPathIn m w x n).wrPauseWb = false := congrArg FlushPathIn.wrPauseWb hx
  have h0 : (((machine m).run w n).tluIn (w n)).i0TriggerHitRawE4 = false := congrArg TluIn.i0TriggerHitRawE4 hw
  have h1 : (((machine m).run w n).tluIn (w n)).i1TriggerHitRawE4 = false := congrArg TluIn.i1TriggerHitRawE4 hw
  have hsync : (((machine m).run w n).tluIn (w n)).syncFlushOther = false := congrArg TluIn.syncFlushOther hw
  constructor
  · rw [h0, Tlu.i0TriggerHitRaw, Tlu.i0TriggerE4, hen, BitVec.and_zero, Tlu.chainMasked_zero]
    rfl
  · rw [h1, Tlu.i1TriggerHitRaw, Tlu.i1TriggerE4, hen, BitVec.and_zero, Tlu.chainMasked_zero]
    rfl
  · rw [hsync, Tlu.selNpcWb, hrun, hpause, hdebug, hwr]
    rfl
  · exact congrArg TluIn.dbgHalted hw
  · exact hdebug
  · intro hwake
    rw [hrun, hpause] at hwake
    exact absurd hwake Bool.false_ne_true

/-- A trap vector at address `0x2000`. -/
def plainVector : Nat → FlushPathIn := fun _ => { mtvec := 0x1000 }

/-- `ecall` at address `0x80`. -/
def ecallAlone : List CpuIn := [{ dec := { i0 := { valid := true, instr := 0x00000073, pc := 0x40 } } }]

/-- It takes its exception in cycle 4, and the flush goes to the vector. -/
theorem trapVectorExact_ecall :
    ((machine { bankMem := fun _ _ => 0 }).run (ecallAlone.getD · {}) 4).tlu.takesException
      (((machine { bankMem := fun _ _ => 0 }).run (ecallAlone.getD · {}) 4).tluIn (ecallAlone.getD 4 {})) = true ∧
    TrapVectorExact { bankMem := fun _ _ => 0 } (ecallAlone.getD · {}) plainVector 4 := by
  refine ⟨by decide +kernel, (trapVectorExact_iff (Machine.respects_getD ?_ fun s => ?_) ?_ 4).mpr ?_⟩
  · decide +kernel
  · exact nofun
  · intro n
    refine flushWired_of_quiet ?_ rfl
    cases n with
    | zero => rfl
    | succ n => rfl
  · exact ⟨by decide +kernel, by decide +kernel, by decide +kernel⟩

/-- `mul x1, x2, x2` at address `0x80`. -/
def presentMul : CpuIn := { dec := { i0 := { valid := true, instr := 0x022100b3, pc := 0x40 } } }

/-- `addi x3, x1, 0` at address `0x84`, which waits for the product in the secondary ALU. -/
def presentLateAddi : CpuIn := { dec := { i0 := { valid := true, instr := 0x00008193, pc := 0x42 }, i0Late := true } }

/-- `beq x3, x3, .+6` at address `0x88`, which waits for the sum in the secondary ALU. -/
def presentLateBeq : CpuIn := { dec := { i0 := { valid := true, instr := 0x00318363, pc := 0x44 }, i0Late := true } }

/-- The branch behind the sum.  Decode holds a branch directly behind a product, but not behind an instruction of the
secondary ALU. -/
def lateBranch : List CpuIn := [presentMul, presentLateAddi, presentLateBeq]

/-- In cycle 6 the branch is in E4, is mispredicted and taken to address `0x8e`.  Both its other path and the vector are
selected, and the flush goes to address `0x208e` in place of `0x2000`. -/
theorem lateBranch_mixes :
    (machine { bankMem := fun _ _ => 0 }).Respects (fun s i => s.fpu.Answers i.fpu) (lateBranch.getD · {}) ∧
    (∀ n, FlushWired { bankMem := fun _ _ => 0 } (lateBranch.getD · {}) plainVector n) ∧
    ¬(∀ n, TrapVectorExact { bankMem := fun _ _ => 0 } (lateBranch.getD · {}) plainVector n) ∧
    ((machine { bankMem := fun _ _ => 0 }).run (lateBranch.getD · {}) 6).tlu.instMisalignedI0E4
      (((machine { bankMem := fun _ _ => 0 }).run (lateBranch.getD · {}) 6).tluIn (lateBranch.getD 6 {})) = true ∧
    ((machine { bankMem := fun _ _ => 0 }).run (lateBranch.getD · {}) 6).tlu.i0MpE4
      (((machine { bankMem := fun _ _ => 0 }).run (lateBranch.getD · {}) 6).tluIn (lateBranch.getD 6 {})) = true ∧
    ((machine { bankMem := fun _ _ => 0 }).run (lateBranch.getD · {}) 6).tlu.flushPath
      (((machine { bankMem := fun _ _ => 0 }).run (lateBranch.getD · {}) 6).tluIn (lateBranch.getD 6 {}))
      (flushPathIn { bankMem := fun _ _ => 0 } (lateBranch.getD · {}) plainVector 6) = 0x1047 := by
  refine ⟨Machine.respects_getD ?_ fun s => ?_, fun n => flushWired_of_quiet ?_ rfl, fun h => ?_, by decide +kernel⟩
  · decide +kernel
  · exact nofun
  · rcases n with _ | _ | _ | n <;> rfl
  · have hpath := (h 6).2 (by decide +kernel) (by decide +kernel) rfl
    revert hpath
    decide +kernel

end Cpu

end SocRV
