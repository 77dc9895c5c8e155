import SocRV.Core.BranchSlot
import SocRV.Core.Flush

/-!
# Branches on their way through the pipeline

`SlotView` is what a slot shows: the valid bits, the decode cycles and the `secondary` bits of its packets, with its
branch registers.  `SlotStep` says what a core cycle does to it, for either slot.  So a valid instruction in E1 to E4 has
its own data in the branch registers, those of the cycle in which it was decoded.
-/

namespace SocRV

open DestPkt

/-! ## One slot -/

/-- What a slot shows of its packets and its branch registers. -/
structure SlotView where
  valid1 : Bool
  valid2 : Bool
  valid3 : Bool
  valid4 : Bool
  seq1 : Nat
  seq2 : Nat
  seq3 : Nat
  seq4 : Nat
  late1 : Bool
  late2 : Bool
  late3 : Bool
  pc2 : BitVec 31
  pc3 : BitVec 31
  exu : ExuSlot
  flushing : Bool
  cycle : Nat

/-- What a core cycle with the ports `i` does to a slot; `decode` says whether decode issues an instruction to it and
`late` is its `secondary` bit. -/
structure SlotStep (a b : SlotView) (i : ExuSlotIn) (decode late : Bool) : Prop where
  exu : b.exu = a.exu.next i
  cycle : b.cycle = a.cycle + 1
  flushing : b.flushing = if i.freeze then a.flushing else i.flushFinal
  e1 : b.valid1 = true →
    (i.freeze = true ∧ i.e1CtlEn = false ∧ i.e1DataEn = false ∧ a.valid1 = true ∧ b.seq1 = a.seq1 ∧
      b.late1 = a.late1) ∨
    (i.freeze = false ∧ i.e1CtlEn = true ∧ i.e1DataEn = true ∧ decode = true ∧ b.seq1 = a.cycle ∧ b.late1 = late)
  e2 : b.valid2 = true →
    (i.freeze = true ∧ i.e2CtlEn = false ∧ i.e2DataEn = false ∧ a.valid2 = true ∧ b.seq2 = a.seq2 ∧
      b.late2 = a.late2 ∧ b.pc2 = a.pc2) ∨
    (i.freeze = false ∧ i.e2CtlEn = true ∧ i.e2DataEn = true ∧ a.valid1 = true ∧ a.flushing = false ∧
      b.seq2 = a.seq1 ∧ b.late2 = a.late1 ∧ b.pc2 = a.exu.aluE1.pcFf)
  e3 : b.valid3 = true →
    (i.e3CtlEn = false ∧ i.e3DataEn = false ∧ a.valid3 = true ∧ b.seq3 = a.seq3 ∧ b.late3 = a.late3 ∧
      b.pc3 = a.pc3) ∨
    (i.e3CtlEn = true ∧ i.e3DataEn = true ∧ a.valid2 = true ∧ a.flushing = false ∧ b.seq3 = a.seq2 ∧
      b.late3 = a.late2 ∧ b.pc3 = a.pc2)
  e4 : b.valid4 = true →
    i.freeze = false ∧ i.flushLower = false ∧ i.e4CtlEn = true ∧ a.valid3 = true ∧ b.seq4 = a.seq3 ∧
      i.secDecodeE3 = a.late3 ∧ i.pcE3 = a.pc3

namespace SlotView

variable {a b : SlotView} {D : Nat → ExuSlotIn} {G L : Nat → Bool} {i : ExuSlotIn}

/-- Each valid instruction has its data in the branch registers: `D`, `G` and `L` are the ports, the issue to the slot
and the `secondary` bit of each cycle. -/
structure Tracked (D : Nat → ExuSlotIn) (G L : Nat → Bool) (a : SlotView) : Prop where
  e1 : a.flushing = false → a.valid1 = true → G a.seq1 = true ∧ a.exu.InE1 (D a.seq1) ∧ a.late1 = L a.seq1
  e2 : a.flushing = false → a.valid2 = true →
    G a.seq2 = true ∧ a.exu.regsE2.Of (D a.seq2) ∧ a.late2 = L a.seq2 ∧ a.pc2 = (D a.seq2).pc
  e3 : a.valid3 = true →
    G a.seq3 = true ∧ a.exu.regsE3.Of (D a.seq3) ∧ a.late3 = L a.seq3 ∧ a.pc3 = (D a.seq3).pc
  e4 : a.valid4 = true → G a.seq4 = true ∧ ∃ c, a.cycle = c + 1 ∧ a.exu.InE4 (D a.seq4) (D c) (L a.seq4)

/-- A core cycle keeps the data of every instruction. -/
theorem Tracked.next (h : Tracked D G L a) (hs : SlotStep a b i (G a.cycle) (L a.cycle)) (hD : D a.cycle = i) :
    Tracked D G L b := by
  have hfl := hs.flushing
  refine ⟨fun hff hv => ?_, fun hff hv => ?_, fun hv => ?_, fun hv => ?_⟩
  · rw [hs.exu]
    rcases hs.e1 hv with ⟨hz, hen, hde, hv1, hq, hc⟩ | ⟨hz, hen, hde, hd, hq, hc⟩
    · rw [hz, if_pos rfl] at hfl
      rw [hq, hc]
      obtain ⟨hd, hin, hlate⟩ := h.e1 (hfl.symm.trans hff) hv1
      exact ⟨hd, hin.hold hen hde hz, hlate⟩
    · rw [hz, if_neg (by decide)] at hfl
      rw [hq, hc, hD]
      exact ⟨hd, ExuSlot.inE1_next hen hde hz (hfl.symm.trans hff), rfl⟩
  · rcases hs.e2 hv with ⟨hz, hen, hde, hv2, hq, hc, hp⟩ | ⟨hz, hen, hde, hv1, ha, hq, hc, hp⟩
    · rw [hz, if_pos rfl] at hfl
      rw [hs.exu, ExuSlot.regsE2_next (hde.trans hen.symm), hen, if_neg (by decide), hq, hc, hp]
      exact h.e2 (hfl.symm.trans hff) hv2
    · rw [hz, if_neg (by decide)] at hfl
      rw [hs.exu, ExuSlot.regsE2_next (hde.trans hen.symm), hen, if_pos rfl, hq, hc, hp]
      obtain ⟨hd, hin, hlate⟩ := h.e1 ha hv1
      exact ⟨hd, hin.regs hz (hfl.symm.trans hff), hlate, hin.pc⟩
  · rcases hs.e3 hv with ⟨hen, hde, hv3, hq, hc, hp⟩ | ⟨hen, hde, hv2, ha, hq, hc, hp⟩
    · rw [hs.exu, ExuSlot.regsE3_next (hde.trans hen.symm), hen, if_neg (by decide), hq, hc, hp]
      exact h.e3 hv3
    · rw [hs.exu, ExuSlot.regsE3_next (hde.trans hen.symm), hen, if_pos rfl, hq, hc, hp]
      exact h.e2 ha hv2
  · obtain ⟨hz, hf, hen, hv3, hq, hdec, hpc⟩ := hs.e4 hv
    obtain ⟨hd, hin, hlate, hp⟩ := h.e3 hv3
    refine ⟨by rw [hq]; exact hd, a.cycle, hs.cycle, ?_⟩
    have hnext := ExuSlot.inE4_next hin hen hz hf (hpc.trans hp)
    rw [hdec, hlate] at hnext
    rw [hs.exu, hq, hD]
    exact hnext

end SlotView

/-! ## Both slots -/

/-- The two slots of a pair. -/
inductive Slot where
  | i0 | i1
  deriving DecidableEq, Repr

namespace Slot

/-- What belongs to the slot. -/
def pick {α : Type} (k : Slot) (x0 x1 : α) : α :=
  match k with
  | .i0 => x0
  | .i1 => x1

/-- The valid bit of a packet. -/
def valid (k : Slot) (d : DestPkt) : Bool := k.pick d.i0valid d.i1valid

/-- The `secondary` bit of a packet. -/
def secondary (k : Slot) (d : DestPkt) : Bool := k.pick d.i0secondary d.i1secondary

/-- Decode issues an instruction to the slot. -/
def decodes (k : Slot) (s : Dec) (i : DecIn) : Bool := k.pick (s.i0DecodeD i) (s.i1DecodeD i)

/-- The `secondary` bit that decode gives it. -/
def late (k : Slot) (s : Dec) (i : DecIn) : Bool :=
  k.pick (Dec.i0SecondaryD i && s.i0LegalDecodeD i) (Dec.i1SecondaryD i && s.i1DecodeD i)

/-- The enable bits of E1 to E3. -/
def pipeEn4 (k : Slot) (s : Dec) : Bool := k.pick s.i0PipeEn4 s.i1PipeEn4

@[inherit_doc pipeEn4]
def pipeEn3 (k : Slot) (s : Dec) : Bool := k.pick s.i0PipeEn3 s.i1PipeEn3

@[inherit_doc pipeEn4]
def pipeEn2 (k : Slot) (s : Dec) : Bool := k.pick s.i0PipeEn2 s.i1PipeEn2

variable {k : Slot} {s : Dec} {i : DecIn} {d : DestPkt}

/-- A valid instruction makes its packet live. -/
theorem live_of_valid (h : k.valid d = true) : d.live = true := by
  cases k
  · exact live_of_i0valid h
  · exact live_of_i1valid h

/-- A kill only removes. -/
theorem valid_of_kill {k0 k1 : Bool} (h : k.valid (d.kill k0 k1) = true) : k.valid d = true := by
  cases k
  · exact (Bool.and_eq_true_iff.mp h).1
  · exact (Bool.and_eq_true_iff.mp h).1

/-- The packet that decode forms. -/
theorem valid_dd : k.valid (s.dd i) = k.decodes s i := by
  cases k <;> rfl

@[inherit_doc valid_dd]
theorem secondary_dd : k.secondary (s.dd i) = k.late s i := by
  cases k <;> rfl

/-- The enable bits move with the instructions. -/
theorem pipeEn4_next : k.pipeEn4 (s.next i) = if i.freeze then k.pipeEn4 s else k.decodes s i := by
  cases k <;> cases hf : i.freeze <;> simp [pipeEn4, decodes, pick, Dec.next, hf]

@[inherit_doc pipeEn4_next]
theorem pipeEn3_next : k.pipeEn3 (s.next i) = if i.freeze then k.pipeEn3 s else k.pipeEn4 s := by
  cases k <;> cases hf : i.freeze <;> simp [pipeEn3, pipeEn4, pick, Dec.next, hf]

@[inherit_doc pipeEn4_next]
theorem pipeEn2_next : k.pipeEn2 (s.next i) = if i.freeze then k.pipeEn2 s else k.pipeEn3 s := by
  cases k <;> cases hf : i.freeze <;> simp [pipeEn2, pipeEn3, pick, Dec.next, hf]

end Slot

namespace Dec

variable {s : Dec} {i : DecIn} {k : Slot}

/-- A valid instruction in a slot is covered by the enable bit of its stage. -/
structure Covers (k : Slot) (s : Dec) : Prop where
  e1 : k.valid s.e1d = true → k.pipeEn4 s = true
  e2 : k.valid s.e2d = true → k.pipeEn3 s = true
  e3 : k.valid s.e3d = true → k.pipeEn2 s = true

theorem covers_reset (k : Slot) : Covers k {} := by
  cases k
  · exact ⟨nofun, nofun, nofun⟩
  · exact ⟨nofun, nofun, nofun⟩

/-- A cycle keeps a slot of the branch registers behind its packet. -/
theorem Covers.next (h : Covers k s) (hg : Gated s) (i : DecIn) : Covers k (s.next i) := by
  refine ⟨fun hv => ?_, fun hv => ?_, fun hv => ?_⟩
  · rw [Slot.pipeEn4_next]
    rcases step_e1d hg (Slot.live_of_valid hv) with ⟨hf, heq⟩ | ⟨hf, -, heq⟩
    · rw [hf, if_pos rfl]
      exact h.e1 (heq ▸ hv)
    · rw [hf, if_neg (by decide), ← Slot.valid_dd, ← heq]
      exact hv
  · rw [Slot.pipeEn3_next]
    rcases step_e2d hg (Slot.live_of_valid hv) with ⟨hf, heq⟩ | ⟨hf, -, -, heq⟩
    · rw [hf, if_pos rfl]
      exact h.e2 (heq ▸ hv)
    · rw [hf, if_neg (by decide)]
      exact h.e1 (heq ▸ hv)
  · rw [Slot.pipeEn2_next]
    rcases step_e3d hg (Slot.live_of_valid hv) with ⟨hf, heq⟩ | ⟨hf, -, -, -, heq⟩
    · rw [hf, if_pos rfl]
      exact h.e3 (heq ▸ hv)
    · rw [hf, if_neg (by decide)]
      exact h.e2 (heq ▸ hv)

end Dec

namespace Cpu

open Dec

variable {s : Cpu} {i : CpuIn} {k : Slot}

/-- What a slot shows in a state. -/
def view (k : Slot) (s : Cpu) : SlotView where
  valid1 := k.valid s.dec.e1d
  valid2 := k.valid s.dec.e2d
  valid3 := k.valid s.dec.e3d
  valid4 := k.valid s.dec.e4d
  seq1 := s.dec.e1d.seq
  seq2 := s.dec.e2d.seq
  seq3 := s.dec.e3d.seq
  seq4 := s.dec.e4d.seq
  late1 := k.secondary s.dec.e1d
  late2 := k.secondary s.dec.e2d
  late3 := k.secondary s.dec.e3d
  pc2 := k.pick s.dec.i0PcE2 s.dec.i1PcE2
  pc3 := k.pick s.dec.i0PcE3 s.dec.i1PcE3
  exu := k.pick s.exu.i0 s.exu.i1
  flushing := s.dec.flushFinalE3
  cycle := s.dec.cycle

/-- The ports of a slot of the execution unit. -/
def ports (k : Slot) (s : Cpu) (i : CpuIn) : ExuSlotIn := k.pick (s.exuI0In i) (s.exuI1In i)

/-- The pipeline of both slots follows `exu_flush_final`. -/
theorem next_flushFinalE3 :
    (s.next i).dec.flushFinalE3 =
      if s.freeze i then s.dec.flushFinalE3 else s.exu.flushFinal s.flushLowerWb (s.freeze i) := by
  have heq : (s.next i).dec.flushFinalE3 =
      (rvdffs (!s.freeze i) (s.exu.i0FlushFinal s.flushLowerWb (s.freeze i)) s.dec.i0FlushFinalE3 ||
        rvdffs (!s.freeze i) (s.exu.i1FlushFinal s.flushLowerWb (s.freeze i)) s.dec.i1FlushFinalE3) := rfl
  rw [heq]
  cases hf : s.freeze i with
  | true => rfl
  | false =>
    simp only [Bool.not_false, rvdffs_true, Exu.i0FlushFinal, Exu.i1FlushFinal, Exu.flushFinal, Bool.and_true]
    cases s.flushLowerWb <;> simp

/-- In a freeze the stages E1 to E3 are not enabled. -/
theorem enables_frozen (hf : s.freeze i = true) :
    (ports k s i).e1CtlEn = false ∧ (ports k s i).e1DataEn = false ∧ (ports k s i).e2CtlEn = false ∧
      (ports k s i).e2DataEn = false ∧ (ports k s i).e3CtlEn = false ∧ (ports k s i).e3DataEn = false := by
  have hoff {b : Bool} : (b && !s.freeze i) = false := by rw [hf, Bool.not_true, Bool.and_false]
  cases k
  · exact ⟨hoff, hoff, hoff, hoff, hoff, hoff⟩
  · exact ⟨hoff, hoff, hoff, hoff, hoff, hoff⟩

/-- A stage is enabled for the instruction that moves to it. -/
theorem enables_e1 (hf : s.freeze i = false) (hd : k.decodes s.dec (s.decIn i) = true) :
    (ports k s i).e1CtlEn = true ∧ (ports k s i).e1DataEn = true := by
  cases k
  all_goals
    simp only [Slot.decodes, Slot.pick] at hd
    simp [ports, Slot.pick, exuI0In, exuI1In, i0E1CtlEn, i0E1DataEn, i1E1CtlEn, i1E1DataEn, hf, hd]

@[inherit_doc enables_e1]
theorem enables_e2 (hf : s.freeze i = false) (hp : k.pipeEn4 s.dec = true) :
    (ports k s i).e2CtlEn = true ∧ (ports k s i).e2DataEn = true := by
  cases k
  all_goals
    simp only [Slot.pipeEn4, Slot.pick] at hp
    simp [ports, Slot.pick, exuI0In, exuI1In, i0E2CtlEn, i0E2DataEn, i1E2CtlEn, i1E2DataEn, hf, hp]

@[inherit_doc enables_e1]
theorem enables_e3 (hf : s.freeze i = false) (hp : k.pipeEn3 s.dec = true) :
    (ports k s i).e3CtlEn = true ∧ (ports k s i).e3DataEn = true := by
  cases k
  all_goals
    simp only [Slot.pipeEn3, Slot.pick] at hp
    simp [ports, Slot.pick, exuI0In, exuI1In, i0E3CtlEn, i0E3DataEn, i1E3CtlEn, i1E3DataEn, hf, hp]

@[inherit_doc enables_e1]
theorem enables_e4 (hp : k.pipeEn2 s.dec = true) : (ports k s i).e4CtlEn = true := by
  cases k
  all_goals
    simp only [Slot.pipeEn2, Slot.pick] at hp
    simp [ports, Slot.pick, exuI0In, exuI1In, i0E4CtlEn, i1E4CtlEn, hp]

/-- The addresses of the instructions move with the data of the stages. -/
theorem pc2_next : (view k (s.next i)).pc2 =
    if (ports k s i).e2DataEn then (view k s).exu.aluE1.pcFf else (view k s).pc2 := by
  cases k <;> rfl

@[inherit_doc pc2_next]
theorem pc3_next : (view k (s.next i)).pc3 = if (ports k s i).e3DataEn then (view k s).pc2 else (view k s).pc3 := by
  cases k <;> rfl

/-- What is resolved in E4 is what stands in E3 and is not removed on the way. -/
theorem secDecodeE3_eq (hf : s.freeze i = false) (hfl : s.flushLowerWb = false)
    (hv : k.valid (s.dec.e3d.kill false s.dec.i0FlushFinalE3) = true) :
    (ports k s i).secDecodeE3 = k.secondary s.dec.e3d := by
  cases k with
  | i0 => simp [ports, Slot.pick, Slot.secondary, exuI0In, i0SecDecodeE3, hf, hfl]
  | i1 =>
    have hkeep : s.dec.i0FlushFinalE3 = false := by
      simpa using (Bool.and_eq_true_iff.mp hv).2
    simp [ports, Slot.pick, Slot.secondary, exuI1In, i1SecDecodeE3, hf, hfl, hkeep]

/-- A core cycle of a slot. -/
theorem slotStep (hg : Gated s.dec) (hc : Covers k s.dec) :
    SlotStep (view k s) (view k (s.next i)) (ports k s i) (k.decodes s.dec (s.decIn i)) (k.late s.dec (s.decIn i)) := by
  have hfreeze : (ports k s i).freeze = s.freeze i := by cases k <;> rfl
  have hfinal : (ports k s i).flushFinal = s.exu.flushFinal s.flushLowerWb (s.freeze i) := by cases k <;> rfl
  have hlower : (ports k s i).flushLower = s.flushLowerWb := by cases k <;> rfl
  have hpc3 : (ports k s i).pcE3 = (view k s).pc3 := by cases k <;> rfl
  constructor
  · cases k <;> rfl
  · rfl
  · rw [hfreeze, hfinal]
    exact next_flushFinalE3
  · intro hv
    rw [hfreeze]
    have hnext : k.valid (s.dec.next (s.decIn i)).e1d = true := hv
    rcases step_e1d hg (Slot.live_of_valid hnext) with ⟨hf, heq⟩ | ⟨hf, -, heq⟩
    · obtain ⟨hen, hde, -⟩ := enables_frozen (k := k) hf
      rw [heq] at hnext
      exact Or.inl ⟨hf, hen, hde, hnext, congrArg DestPkt.seq heq, congrArg k.secondary heq⟩
    · rw [heq] at hnext
      have hd : k.decodes s.dec (s.decIn i) = true := Slot.valid_dd.symm.trans hnext
      obtain ⟨hen, hde⟩ := enables_e1 hf hd
      exact Or.inr ⟨hf, hen, hde, hd, congrArg DestPkt.seq heq, (congrArg k.secondary heq).trans Slot.secondary_dd⟩
  · intro hv
    rw [hfreeze]
    have hnext : k.valid (s.dec.next (s.decIn i)).e2d = true := hv
    rcases step_e2d hg (Slot.live_of_valid hnext) with ⟨hf, heq⟩ | ⟨hf, hff, -, heq⟩
    · obtain ⟨-, -, hen, hde, -⟩ := enables_frozen (k := k) hf
      rw [heq] at hnext
      refine Or.inl ⟨hf, hen, hde, hnext, congrArg DestPkt.seq heq, congrArg k.secondary heq, ?_⟩
      rw [pc2_next, hde, if_neg (by decide)]
    · rw [heq] at hnext
      obtain ⟨hen, hde⟩ := enables_e2 hf (hc.e1 hnext)
      refine Or.inr ⟨hf, hen, hde, hnext, hff, congrArg DestPkt.seq heq, congrArg k.secondary heq, ?_⟩
      rw [pc2_next, hde, if_pos rfl]
  · intro hv
    have hnext : k.valid (s.dec.next (s.decIn i)).e3d = true := hv
    rcases step_e3d hg (Slot.live_of_valid hnext) with ⟨hf, heq⟩ | ⟨hf, hff, -, -, heq⟩
    · obtain ⟨-, -, -, -, hen, hde⟩ := enables_frozen (k := k) hf
      rw [heq] at hnext
      refine Or.inl ⟨hen, hde, hnext, congrArg DestPkt.seq heq, congrArg k.secondary heq, ?_⟩
      rw [pc3_next, hde, if_neg (by decide)]
    · rw [heq] at hnext
      obtain ⟨hen, hde⟩ := enables_e3 hf (hc.e2 hnext)
      refine Or.inr ⟨hen, hde, hnext, hff, congrArg DestPkt.seq heq, congrArg k.secondary heq, ?_⟩
      rw [pc3_next, hde, if_pos rfl]
  · intro hv
    have hnext : k.valid (s.dec.next (s.decIn i)).e4d = true := hv
    obtain ⟨hf, hfl, -, heq⟩ := step_e4d hg (Slot.live_of_valid hnext)
    have hq : (s.dec.next (s.decIn i)).e4d.seq = s.dec.e3d.seq := by rw [heq]; rfl
    rw [heq] at hnext
    have hv3 := Slot.valid_of_kill hnext
    rw [hfreeze, hlower, hpc3]
    exact ⟨hf, hfl, enables_e4 (hc.e3 hv3), hv3, hq, secDecodeE3_eq hf hfl hnext, rfl⟩

section Run

variable (m : DccmMem) (w : Nat → CpuIn) (n : Nat)

/-- In every state of a run the branch registers go with the packets. -/
theorem covers_run (k : Slot) : ((machine m).run w n).dec.Covers k := by
  induction n with
  | zero => exact covers_reset k
  | succ n ih => exact ih.next (sound_run m w n).gated _

/-- The ports of a slot in each cycle of a run. -/
def portsOf (k : Slot) (n : Nat) : ExuSlotIn := ports k ((machine m).run w n) (w n)

/-- The slot gets an instruction. -/
def issueOf (k : Slot) (n : Nat) : Bool := k.decodes ((machine m).run w n).dec (((machine m).run w n).decIn (w n))

/-- The slot decodes an instruction that is resolved in E4. -/
def lateOf (k : Slot) (n : Nat) : Bool := k.late ((machine m).run w n).dec (((machine m).run w n).decIn (w n))

/-- In every run a slot keeps the data of its instructions. -/
theorem tracked_run (k : Slot) :
    (view k ((machine m).run w n)).Tracked (portsOf m w k) (issueOf m w k) (lateOf m w k) := by
  induction n with
  | zero =>
    cases k
    · exact ⟨nofun, nofun, nofun, nofun⟩
    · exact ⟨nofun, nofun, nofun, nofun⟩
  | succ n ih =>
    have hcycle : (view k ((machine m).run w n)).cycle = n := run_cycle m w n
    have hstep := slotStep (i := w n) (sound_run m w n).gated (covers_run m w n k)
    rw [Machine.run_succ]
    exact ih.next (by rw [hcycle]; exact hstep) (by rw [hcycle]; rfl)

/-- A valid instruction in E4 was issued in the cycle of its packet and has its data in E4. -/
theorem inE4_run {k : Slot} (hv : k.valid ((machine m).run w n).dec.e4d = true) :
    issueOf m w k ((machine m).run w n).dec.e4d.seq = true ∧
      (view k ((machine m).run w n)).exu.InE4 (portsOf m w k ((machine m).run w n).dec.e4d.seq) (portsOf m w k (n - 1))
        (lateOf m w k ((machine m).run w n).dec.e4d.seq) := by
  obtain ⟨hd, c, hc, hin⟩ := (tracked_run m w n k).e4 hv
  have hn : n = c + 1 := (run_cycle m w n).symm.trans hc
  rw [show n - 1 = c from by omega]
  exact ⟨hd, hin⟩

/-- The same of slot `i0`. -/
theorem inE4_i0_run (hv : ((machine m).run w n).dec.e4d.i0valid = true) :
    issueOf m w .i0 ((machine m).run w n).dec.e4d.seq = true ∧
      ((machine m).run w n).exu.i0.InE4 (portsOf m w .i0 ((machine m).run w n).dec.e4d.seq) (portsOf m w .i0 (n - 1))
        (lateOf m w .i0 ((machine m).run w n).dec.e4d.seq) :=
  inE4_run m w n hv

/-- The same of slot `i1`. -/
theorem inE4_i1_run (hv : ((machine m).run w n).dec.e4d.i1valid = true) :
    issueOf m w .i1 ((machine m).run w n).dec.e4d.seq = true ∧
      ((machine m).run w n).exu.i1.InE4 (portsOf m w .i1 ((machine m).run w n).dec.e4d.seq) (portsOf m w .i1 (n - 1))
        (lateOf m w .i1 ((machine m).run w n).dec.e4d.seq) :=
  inE4_run m w n hv

end Run

end Cpu

end SocRV
