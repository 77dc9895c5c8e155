import SocRV.Core.LongOpTrap

/-!
# Long operations commit

A division or a floating-point operation traps nothing of its own, so it commits unless the registers of E4 trap it.
These hold what stood behind it in decode, drained there without being decoded, and a jump to an address with bit 1 set
is enough.
-/

namespace SocRV

namespace Cpu

/-- No debugger and no trigger, and `fpnew` answers only what it has accepted. -/
def LongOpEnv (s : Cpu) (i : CpuIn) : Prop := s.fpu.Answers i.fpu ∧ NoDebug i

instance (s : Cpu) (i : CpuIn) : Decidable (s.LongOpEnv i) :=
  inferInstanceAs (Decidable (s.fpu.Answers i.fpu ∧ NoDebug i))

/-- Every long operation of the run commits cleanly in the cycle of its completion. -/
def LongOpsCommit (m : DccmMem) (w : Nat → CpuIn) : Prop :=
  ∀ n, ((machine m).run w n).Completes (w n) → ((machine m).run w n).CommitsCleanly (w n)

/-- In every run a long operation commits cleanly in the cycle of its completion exactly when the registers of E4 do not
hold a jump, or a branch that is taken, to an address with bit 1 set, nor a branch with an inconsistent prediction. -/
theorem longOp_commits_iff {m : DccmMem} {w : Nat → CpuIn} (hw : (machine m).Respects LongOpEnv w) :
    ∀ n, ((machine m).run w n).Completes (w n) →
      (((machine m).run w n).CommitsCleanly (w n) ↔ ¬((machine m).run w n).LeftoverTraps (w n)) := by
  intro n hc
  have ha : (machine m).Respects (fun s i => s.fpu.Answers i.fpu) w := fun k => (hw k).1
  exact commitsCleanly_iff (sound_run m w n) (alone_run ha n) (reported_run m w n) (quiet_run ha n) (hw n).1 (hw n).2 hc

/-- `addi x1, x0, 2` at address `0x80`, with the immediate on the operand bus. -/
def presentAddi : CpuIn := { dec := { i0 := { valid := true, instr := 0x00200093, pc := 0x40 } }, i0 := { b := 2 } }

/-- `div x3, x1, x2` at address `0x84`, with 2 in `x1` and 16 in `x2`. -/
def presentDiv : CpuIn :=
  { dec := { i0 := { valid := true, instr := 0x0220c1b3, pc := 0x42 } }, div := { dividend := 2, divisor := 16 } }

/-- `addi x4, x4, 0` at address `0x88`. -/
def presentMove : CpuIn := { dec := { i0 := { valid := true, instr := 0x00020213, pc := 0x44 } } }

/-- `jalr x0, 0(x1)` at address `0x88`. -/
def presentRet : CpuIn := { dec := { i0 := { valid := true, instr := 0x00008067, pc := 0x44 } } }

/-- The division alone in the pipeline, and an addition behind it that waits in decode for its end. -/
def divAlone : List CpuIn := presentDiv :: List.replicate 20 presentMove

/-- It completes in cycle 10 and commits: the addition has left nothing in the registers of E4 that traps it. -/
theorem longOp_commits_divAlone :
    ((machine { bankMem := fun _ _ => 0 }).run (divAlone.getD · {}) 10).Completes (divAlone.getD 10 {}) ∧
    ((machine { bankMem := fun _ _ => 0 }).run (divAlone.getD · {}) 10).CommitsCleanly (divAlone.getD 10 {}) := by
  have hdone : ((machine { bankMem := fun _ _ => 0 }).run (divAlone.getD · {}) 10).Completes (divAlone.getD 10 {}) :=
    Or.inl (by decide +kernel)
  refine ⟨hdone, (longOp_commits_iff (Machine.respects_getD ?_ fun s => ?_) 10 hdone).mpr ?_⟩
  · decide +kernel
  · exact ⟨nofun, rfl, rfl, rfl, rfl⟩
  · rintro (h | h | h) <;> revert h <;> decide +kernel

/-- The division between the addition and a return, which waits in decode for its end. -/
def retBehindDiv : List CpuIn :=
  [presentAddi, presentDiv, presentDiv, presentDiv, presentDiv] ++ List.replicate 20 presentRet

/-- The division of 2 by 16 completes in cycle 14.  The return behind it has left its packet and the sum of the operands of the
addition, 2, in the registers of E4, and the division is trapped for it. -/
theorem retBehindDiv_traps :
    (machine { bankMem := fun _ _ => 0 }).Respects LongOpEnv (retBehindDiv.getD · {}) ∧
    ¬LongOpsCommit { bankMem := fun _ _ => 0 } (retBehindDiv.getD · {}) ∧
    ((machine { bankMem := fun _ _ => 0 }).run (retBehindDiv.getD · {}) 14).divFinish (retBehindDiv.getD 14 {}) = true ∧
    ((machine { bankMem := fun _ _ => 0 }).run (retBehindDiv.getD · {}) 14).tlu.instMisalignedI0E4
      (((machine { bankMem := fun _ _ => 0 }).run (retBehindDiv.getD · {}) 14).tluIn (retBehindDiv.getD 14 {})) = true := by
  refine ⟨Machine.respects_getD ?_ fun s => ?_, fun h => ?_, by decide +kernel⟩
  · decide +kernel
  · exact ⟨nofun, rfl, rfl, rfl, rfl⟩
  · have hclean := h 14 (Or.inl (by decide +kernel))
    exact absurd hclean.1 (by decide +kernel)

end Cpu

end SocRV
