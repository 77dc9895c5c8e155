import SocRV.Core.Flush

/-!
# A flush removes what is in the pipeline

In a run whose flushes never meet a load that waits for the bus, an instruction that is in E1, E2 or E3 when the
pipeline is flushed is gone for good.  A flush in a frozen cycle is lost: the stage registers hold, so the instruction
stays where it is, asks for the bus again and commits.
-/

namespace SocRV

namespace Cpu

variable {s : Cpu} {i : CpuIn}

/-- The instruction decoded in cycle `t` is in E1, E2 or E3, or its access is in DC1, DC2 or DC3. -/
def SitsInE1E3 (s : Cpu) (t : Nat) : Prop :=
  (s.dec.e1d.live = true ∧ s.dec.e1d.seq = t) ∨ (s.dec.e2d.live = true ∧ s.dec.e2d.seq = t) ∨
  (s.dec.e3d.live = true ∧ s.dec.e3d.seq = t) ∨
  (s.lsu.lsc.pktDc1.valid = true ∧ s.lsu.lsc.pktDc1.tag = t) ∨
  (s.lsu.lsc.pktDc2.valid = true ∧ s.lsu.lsc.pktDc2.tag = t) ∨
  (s.lsu.lsc.pktDc3.valid = true ∧ s.lsu.lsc.pktDc3.tag = t)

/-- The instruction decoded in cycle `t` is valid in E4, DC4 or DC5, completes there as a long operation, writes a
register, or has or makes a read request on the bus. -/
def Acts (s : Cpu) (i : CpuIn) (t : Nat) : Prop :=
  (s.dec.e4d.live = true ∧ s.dec.e4d.seq = t) ∨
  (s.divFinish i = true ∧ s.dec.divSeq = t) ∨ (s.fpuRespValid i = true ∧ s.dec.fpuSeq = t) ∨
  (s.lsu.lsc.pktDc4.valid = true ∧ s.lsu.lsc.pktDc4.tag = t) ∨
  (s.lsu.lsc.pktDc5.valid = true ∧ s.lsu.lsc.pktDc5.tag = t) ∨
  ((s.dec.i0WenWb s.tlu.i0KillWritebWb s.tlu.i1KillWritebWb = true ∨
    s.dec.i1WenWb s.tlu.i1KillWritebWb = true) ∧ s.dec.wbd.seq = t) ∨
  ((s.lsu.bus.loadPending = true ∨ s.lsu.loadRequestDc2 (s.lsuIn i) = true) ∧ s.lsu.lsc.pktDc2.tag = t)

instance (s : Cpu) (t : Nat) : Decidable (s.SitsInE1E3 t) := by
  unfold SitsInE1E3
  infer_instance

instance (s : Cpu) (i : CpuIn) (t : Nat) : Decidable (s.Acts i t) := by
  unfold Acts
  infer_instance

/-- What sits in the pipeline was decoded before. -/
theorem Sound.sits_le (h : Sound s) {t : Nat} (ht : s.SitsInE1E3 t) : t ≤ s.dec.cycle := by
  have h1 := h.ordered.e1
  have h2 := h.ordered.e2
  have h3 := h.ordered.e3
  rcases ht with ⟨-, rfl⟩ | ⟨-, rfl⟩ | ⟨-, rfl⟩ | ⟨hv, rfl⟩ | ⟨hv, rfl⟩ | ⟨hv, rfl⟩
  · exact h1
  · exact Nat.le_trans h2 h1
  · exact Nat.le_trans h3 (Nat.le_trans h2 h1)
  · exact h.tags.dc1 hv
  · exact h.tags.dc2 hv
  · exact h.tags.dc3 hv

/-- A register is written for a live packet only. -/
theorem Sound.live_of_wen (h : Sound s) {k0 k1 : Bool} (hw : s.dec.i0WenWb k0 k1 = true ∨ s.dec.i1WenWb k1 = true) :
    s.dec.wbd.live = true := by
  simp only [Dec.i0WenWb, Dec.i1WenWb, Bool.and_eq_true] at hw
  rcases hw with ⟨⟨hv, -⟩, -⟩ | ⟨hv, -⟩
  · simp [DestPkt.live, h.wf.wb.1 hv]
  · simp [DestPkt.live, h.wf.wb.2 hv]

/-- Whatever acts is in flight. -/
theorem InFlight.of_acts {P : Nat → Prop} (h : InFlight P s) (hs : Sound s) (ha : s.fpu.Answers i.fpu) {t : Nat}
    (ht : s.Acts i t) : P t := by
  rcases ht with ⟨hl, rfl⟩ | ⟨hd, rfl⟩ | ⟨hr, rfl⟩ | ⟨hv, rfl⟩ | ⟨hv, rfl⟩ | ⟨hwen, rfl⟩ | ⟨hp | hr, rfl⟩
  · exact h.dec.e4 hl
  · exact h.of_divFinish hs hd
  · exact h.of_fpuRespValid ha hr
  · exact h.lsu.dc4 hv
  · exact h.lsu.dc5 hv
  · exact h.dec.wb (hs.live_of_wen hwen)
  · exact h.lsu.pending hp
  · exact h.lsu.dc2 (LsuBus.valid_of_loadRequestDc2 hr)

/-- A flush removes what is in E1 to E3 for good. -/
def FlushComplete (m : DccmMem) (w : Nat → CpuIn) : Prop :=
  ∀ n t, ((machine m).run w n).flushLowerWb = true → ((machine m).run w n).SitsInE1E3 t →
    ∀ k, n < k → ¬((machine m).run w k).Acts (w k) t

/-- After a flush that is not lost, everything in flight was decoded later. -/
theorem inFlight_after_flush {m : DccmMem} {w : Nat → CpuIn}
    (ha : (machine m).Respects (fun s i => s.fpu.Answers i.fpu) w) {n : Nat}
    (hfl : ((machine m).run w n).flushLowerWb = true)
    (hready : ((machine m).run w n).lsu.bus.loadPending = true → (w n).lsu.mmioReady = true) {k : Nat} (hk : n < k) :
    InFlight (n < ·) ((machine m).run w k) := by
  induction k, hk using Nat.le_induction with
  | base =>
    refine inFlight_of_flush (sound_run m w n) hfl ?_
    rw [freeze_of_flush hfl, Bool.and_eq_false_iff, Bool.not_eq_false']
    cases hp : ((machine m).run w n).lsu.bus.loadPending with
    | false => exact Or.inl rfl
    | true => exact Or.inr (hready hp)
  | succ k hk ih =>
    refine ih.next (sound_run m w k) ?_ (ha k)
    rw [run_cycle]
    exact hk

/-- In every run in which no flush comes in a cycle in which a load waits for an answer of the bus, every flush removes
what is in E1 to E3 for good.  Of `fpnew` it is assumed that it answers only what it has accepted. -/
theorem flush_complete {m : DccmMem} {w : Nat → CpuIn}
    (hw : (machine m).Respects (fun s i => s.fpu.Answers i.fpu ∧
      (s.flushLowerWb = true → s.lsu.bus.loadPending = true → i.lsu.mmioReady = true)) w) : FlushComplete m w := by
  intro n t hfl ht k hk hacts
  have ha : (machine m).Respects (fun s i => s.fpu.Answers i.fpu) w := fun n => (hw n).1
  have hlate := (inFlight_after_flush ha hfl ((hw n).2 hfl) hk).of_acts (sound_run m w k) (ha k) hacts
  have hearly := (sound_run m w n).sits_le ht
  rw [run_cycle] at hearly
  exact Nat.not_lt_of_le hearly hlate

/-- A DCCM of zeros. -/
def zeroDccm : DccmMem := { bankMem := fun _ _ => 0 }

/-- `lw t0, 0(ra)` presented alone at address `0x80`, with `ra` at the UART. -/
def presentUartLoad : CpuIn :=
  { dec := { i0 := { valid := true, instr := 0x0000a283, pc := 0x40 } }, lsu := { lsc := { rs1D := 0x10001000 } } }

/-- The load, an interrupt while it waits in DC2, and the answer of the bus four cycles later. -/
def interruptedLoad : List CpuIn :=
  [presentUartLoad, {}, {}, {}, { tlu := { intReady := true } }, {}, {}, {}, { lsu := { mmioReady := true } }, {}, {}]

/-- The load is flushed in cycle 5 and frozen, asks for the bus again in cycle 6, and commits in cycles 10 and 11. -/
theorem flush_lost_in_freeze :
    ¬FlushComplete zeroDccm (interruptedLoad.getD · {}) ∧
    ((machine zeroDccm).run (interruptedLoad.getD · {}) 5).flushLowerWb = true ∧
    ((machine zeroDccm).run (interruptedLoad.getD · {}) 5).freeze {} = true ∧
    ((machine zeroDccm).run (interruptedLoad.getD · {}) 5).SitsInE1E3 0 ∧
    ((machine zeroDccm).run (interruptedLoad.getD · {}) 6).lsu.loadRequestDc2
      (((machine zeroDccm).run (interruptedLoad.getD · {}) 6).lsuIn {}) = true ∧
    ((machine zeroDccm).run (interruptedLoad.getD · {}) 10).dec.e4d.seq = 0 ∧
    ((machine zeroDccm).run (interruptedLoad.getD · {}) 10).tlu.tluI0CommitCmt
      (((machine zeroDccm).run (interruptedLoad.getD · {}) 10).tluIn {}) = true ∧
    ((machine zeroDccm).run (interruptedLoad.getD · {}) 11).lsu.commitDc5
      (((machine zeroDccm).run (interruptedLoad.getD · {}) 11).lsuIn {}) = true := by
  refine ⟨fun h => ?_, by decide +kernel⟩
  exact h 5 0 (by decide +kernel) (by decide +kernel) 10 (by decide) (by decide +kernel)

/-- Nothing in DC1 and DC2 and no load pending. -/
def NoLoadNear (s : Cpu) : Prop :=
  s.lsu.lsc.Gated ∧ s.lsu.lsc.pktDc1.valid = false ∧ s.lsu.lsc.pktDc2.valid = false ∧ s.lsu.bus.loadPending = false

/-- Without new instructions it stays so. -/
theorem NoLoadNear.rest (h : NoLoadNear s) : NoLoadNear (s.next {}) := by
  obtain ⟨hg, h1, h2, hp⟩ := h
  have hissue : ((s.lsu.lscIn (s.lsuIn {})).p).valid = false := by
    simp [lsuP, Dec.lsuDecodeD, Dec.i1DecodeD, Dec.i0LegalDecodeD, Dec.i0DecodeD, decIn]
  refine ⟨hg.next _, ?_, ?_, ?_⟩
  · rw [next_lsu, LsuBus.next, Lsc.next_validDc1 hg, hissue, h1]
    simp
  · rw [next_lsu, LsuBus.next, Lsc.next_validDc2 hg, h1, h2]
    simp
  · by_contra hnext
    rw [Bool.not_eq_false] at hnext
    rcases (LsuBus.of_next_loadPending hnext).1 with h | h
    · rw [hp] at h
      cases h
    · rw [LsuBus.valid_of_loadRequestDc2 h] at h2
      cases h2

/-- The same load, with the interrupt in the cycle before it asks for the bus. -/
def interruptBeforeLoad : List CpuIn := [presentUartLoad, { tlu := { intReady := true } }, {}]

/-- The load is in E1 to E3 in cycles 1 and 2. -/
example : (List.range 5).map (fun n => decide (((machine zeroDccm).run (interruptBeforeLoad.getD · {}) n).SitsInE1E3 0)) =
    [false, true, true, false, false] := by
  decide +kernel

/-- The flush meets the load in DC2 in cycle 2, before it asks for the bus, and the load is gone. -/
theorem flush_complete_interruptBeforeLoad :
    ((machine zeroDccm).run (interruptBeforeLoad.getD · {}) 2).flushLowerWb = true ∧
    ((machine zeroDccm).run (interruptBeforeLoad.getD · {}) 2).SitsInE1E3 0 ∧
    FlushComplete zeroDccm (interruptBeforeLoad.getD · {}) := by
  refine ⟨by decide +kernel, by decide +kernel, flush_complete ?_⟩
  refine Machine.respects_getD_of_stable (I := NoLoadNear) (by decide +kernel) ?_ (fun _ h => h.rest) ?_
  · exact ⟨(sound_run _ _ _).lsc, by decide +kernel, by decide +kernel, by decide +kernel⟩
  · rintro s ⟨-, -, -, hp⟩
    refine ⟨nofun, fun _ h => ?_⟩
    rw [hp] at h
    cases h

end Cpu

end SocRV
