import SocRV.Core.Pipeline
import SocRV.Core.Stages

/-!
# What a flush leaves

Every packet carries the cycle in which it was decoded.  `InFlight P` says that everything which can still have an
effect was decoded in a cycle of which `P` holds; a step keeps it if `P` holds of the present cycle, since decode is
the only source of packets.  A flush in a cycle that is not frozen leaves nothing that was decoded up to that cycle,
so from then on `InFlight` holds of the later cycles.
-/

namespace SocRV

/-! ## The load/store unit -/

namespace LsuBus

variable {s : LsuBus} {i : LsuBusIn} {P : Nat → Prop}

/-- Every packet in the load/store unit, and the load pending on the bus, has a tag of which `P` holds. -/
structure Tags (P : Nat → Prop) (s : LsuBus) : Prop where
  dc1 : s.lsc.pktDc1.valid = true → P s.lsc.pktDc1.tag
  dc2 : s.lsc.pktDc2.valid = true → P s.lsc.pktDc2.tag
  dc3 : s.lsc.pktDc3.valid = true → P s.lsc.pktDc3.tag
  dc4 : s.lsc.pktDc4.valid = true → P s.lsc.pktDc4.tag
  dc5 : s.lsc.pktDc5.valid = true → P s.lsc.pktDc5.tag
  pending : s.bus.loadPending = true → P s.lsc.pktDc2.tag

theorem tags_reset : Tags P {} := ⟨nofun, nofun, nofun, nofun, nofun, nofun⟩

/-- The packet of a load that asks for the bus is valid. -/
theorem valid_of_loadRequestDc2 (h : s.loadRequestDc2 i = true) : s.lsc.pktDc2.valid = true :=
  (Bool.and_eq_true_iff.mp (of_loadRequestDc2 h).1).1

/-- A load pending after a cycle was pending before it or asked for the bus in it, and did not move. -/
theorem of_next_loadPending (h : (s.next i).bus.loadPending = true) :
    (s.bus.loadPending = true ∨ s.loadRequestDc2 i = true) ∧ s.freezeDc3 i = true ∧
      (s.next i).lsc.pktDc2 = s.lsc.pktDc2 := by
  have hf := freeze_of_next_loadPending h
  refine ⟨?_, hf, (Lsc.next_dc2_of_freeze (s := s.lsc) (i := s.lscIn i) hf).1⟩
  simp only [next, nextBus] at h
  cases hp : s.bus.loadPending with
  | true => exact Or.inl rfl
  | false =>
    rw [hp] at h
    exact Or.inr h

theorem Tags.mono {Q : Nat → Prop} (h : Tags P s) (hPQ : ∀ t, P t → Q t) : Tags Q s :=
  ⟨fun hv => hPQ _ (h.dc1 hv), fun hv => hPQ _ (h.dc2 hv), fun hv => hPQ _ (h.dc3 hv), fun hv => hPQ _ (h.dc4 hv),
    fun hv => hPQ _ (h.dc5 hv), fun hv => hPQ _ (h.pending hv)⟩

/-- A cycle brings only the tag of decode into the load/store unit. -/
theorem Tags.next (h : Tags P s) (hg : s.lsc.Gated) (hp : i.lsc.p.valid = true → P i.lsc.p.tag) :
    Tags P (s.next i) := by
  refine ⟨fun hv => ?_, fun hv => ?_, fun hv => ?_, fun hv => ?_, fun hv => ?_, fun hv => ?_⟩
  · rcases Lsc.of_next_validDc1 hg hv with ⟨-, hold, heq⟩ | ⟨-, hnew, -, heq⟩
    · exact heq ▸ h.dc1 hold
    · exact heq ▸ hp hnew
  · rcases Lsc.of_next_validDc2 hg hv with ⟨-, hold, heq, -⟩ | ⟨-, hnew, -, heq, -⟩
    · exact heq ▸ h.dc2 hold
    · exact heq ▸ h.dc1 hnew
  · rcases Lsc.of_next_validDc3 hg hv with ⟨-, hold, heq, -⟩ | ⟨-, hnew, -, heq, -⟩
    · exact heq ▸ h.dc3 hold
    · exact heq ▸ h.dc2 hnew
  · obtain ⟨-, hnew, -, heq⟩ := Lsc.of_next_validDc4 hv
    exact heq ▸ h.dc3 hnew
  · obtain ⟨hnew, -, heq⟩ := Lsc.of_next_validDc5 hv
    exact heq ▸ h.dc4 hnew
  · obtain ⟨hold, -, heq⟩ := of_next_loadPending hv
    rw [heq]
    rcases hold with hold | hold
    · exact h.pending hold
    · exact h.dc2 (valid_of_loadRequestDc2 hold)

/-- When `flush_dc2_up` is high in a cycle that is not frozen, only the packets of DC3 and DC4 can stay. -/
theorem tags_of_dc2Up (hg : s.lsc.Gated) (hf : s.freezeDc3 i = false) (h2 : i.lsc.flush.dc2Up = true)
    (h3 : s.lsc.pktDc3.valid = true → i.lsc.flush.dc3 = false → P s.lsc.pktDc3.tag)
    (h4 : s.lsc.pktDc4.valid = true → i.lsc.flush.dc4 = false → P s.lsc.pktDc4.tag) : Tags P (s.next i) := by
  have hfrozen : ∀ {p : Prop}, (s.lscIn i).freeze = true → p := fun h => by
    rw [lscIn_freeze, hf] at h
    cases h
  have hflushed : ∀ {p : Prop}, (s.lscIn i).flush.dc2Up = false → p := fun h => by
    rw [lscIn_flush, h2] at h
    cases h
  refine ⟨fun hv => ?_, fun hv => ?_, fun hv => ?_, fun hv => ?_, fun hv => ?_, fun hv => ?_⟩
  · rcases Lsc.of_next_validDc1 hg hv with ⟨h, -⟩ | ⟨-, -, h, -⟩
    · exact hfrozen h
    · exact hflushed h
  · rcases Lsc.of_next_validDc2 hg hv with ⟨h, -⟩ | ⟨-, -, h, -⟩
    · exact hfrozen h
    · exact hflushed h
  · rcases Lsc.of_next_validDc3 hg hv with ⟨h, -⟩ | ⟨-, -, h, -⟩
    · exact hfrozen h
    · exact hflushed h
  · obtain ⟨-, hold, hfl, heq⟩ := Lsc.of_next_validDc4 hv
    exact heq ▸ h3 hold hfl
  · obtain ⟨hold, hfl, heq⟩ := Lsc.of_next_validDc5 hv
    exact heq ▸ h4 hold hfl
  · exact hfrozen (of_next_loadPending hv).2.1

end LsuBus

/-! ## Decode and the stages behind it -/

namespace Dec

open DestPkt

variable {s : Dec} {i : DecIn} {P : Nat → Prop}

/-- Every live packet was decoded in a cycle of which `P` holds; the packet in E2 does not count when `flush_final_e3`
is about to remove it. -/
structure Seqs (P : Nat → Prop) (s : Dec) : Prop where
  e1 : s.e1d.live = true → P s.e1d.seq
  e2 : s.flushFinalE3 = false → s.e2d.live = true → P s.e2d.seq
  e3 : s.e3d.live = true → P s.e3d.seq
  e4 : s.e4d.live = true → P s.e4d.seq
  wb : s.wbd.live = true → P s.wbd.seq

/-- What leaves E1 alive was live, and no branch in E3 removes it. -/
theorem e1dIn_live (h : s.e1dIn.live = true) : s.e1d.live = true ∧ s.flushFinalE3 = false := by
  refine ⟨live_of_kill h, ?_⟩
  cases hff : s.flushFinalE3 with
  | false => rfl
  | true =>
    rw [e1dIn, hff, kill_true] at h
    cases h

/-- What leaves E2 alive was live, and no flush removes it. -/
theorem e2dIn_live (h : (s.e2dIn i).live = true) :
    s.e2d.live = true ∧ s.flushFinalE3 = false ∧ i.flushLowerWb = false := by
  refine ⟨live_of_kill h, ?_⟩
  rw [← Bool.or_eq_false_iff]
  cases hff : s.flushFinalE3 || i.flushLowerWb with
  | false => rfl
  | true =>
    rw [e2dIn, hff, kill_true] at h
    cases h

/-- What leaves E3 alive is not flushed. -/
theorem e3dIn_flush (h : (s.e3dIn i).live = true) : i.flushLowerWb = false := by
  cases hfl : i.flushLowerWb with
  | false => rfl
  | true =>
    rw [e3dIn, if_neg (by rw [(e3dIn_live h).2]; decide), hfl, Bool.or_true, kill_true] at h
    cases h

/-- What leaves E3 keeps its cycle of decode. -/
theorem e3dIn_seq (h : i.freeze = false) : (s.e3dIn i).seq = s.e3d.seq := by
  rw [e3dIn, if_neg (by rw [h]; decide)]
  rfl

/-- In a frozen cycle `flush_final_e3` stays. -/
theorem next_flushFinalE3_of_freeze (h : i.freeze = true) : (s.next i).flushFinalE3 = s.flushFinalE3 := by
  simp [flushFinalE3, next, h]

/-! ### What a step does to a live packet -/

/-- A live packet in E1 was there, in a frozen cycle, or comes from decode. -/
theorem step_e1d (hg : Gated s) (hl : (s.next i).e1d.live = true) :
    (i.freeze = true ∧ (s.next i).e1d = s.e1d) ∨
    (i.freeze = false ∧ s.i0DecodeD i = true ∧ (s.next i).e1d = s.dd i) := by
  have heq := (next_e1d (i := i) hg).eq_of_live hl
  cases hf : i.freeze with
  | true =>
    rw [hf, if_pos rfl] at heq
    exact Or.inl ⟨rfl, heq⟩
  | false =>
    rw [hf, if_neg (by decide)] at heq
    exact Or.inr ⟨rfl, dd_live.symm.trans (heq ▸ hl), heq⟩

/-- A live packet in E2 was there, in a frozen cycle, or comes from E1. -/
theorem step_e2d (hg : Gated s) (hl : (s.next i).e2d.live = true) :
    (i.freeze = true ∧ (s.next i).e2d = s.e2d) ∨
    (i.freeze = false ∧ s.flushFinalE3 = false ∧ s.i0PipeEn4 = true ∧ (s.next i).e2d = s.e1d) := by
  have heq := (next_e2d (i := i) hg).eq_of_live hl
  cases hf : i.freeze with
  | true =>
    rw [hf, if_pos rfl] at heq
    exact Or.inl ⟨rfl, heq⟩
  | false =>
    rw [hf, if_neg (by decide)] at heq
    obtain ⟨hl1, hff⟩ := e1dIn_live (heq ▸ hl)
    rw [e1dIn, hff, kill_false] at heq
    exact Or.inr ⟨rfl, hff, hg.e1 hl1, heq⟩

/-- A live packet in E3 was there, in a frozen cycle, or comes from E2. -/
theorem step_e3d (hg : Gated s) (hl : (s.next i).e3d.live = true) :
    (i.freeze = true ∧ (s.next i).e3d = s.e3d) ∨
    (i.freeze = false ∧ s.flushFinalE3 = false ∧ i.flushLowerWb = false ∧ s.i0PipeEn3 = true ∧
      (s.next i).e3d = s.e2d) := by
  have heq := (next_e3d (i := i) hg).eq_of_live hl
  cases hf : i.freeze with
  | true =>
    rw [hf, if_pos rfl] at heq
    exact Or.inl ⟨rfl, heq⟩
  | false =>
    rw [hf, if_neg (by decide)] at heq
    obtain ⟨hl2, hff, hfl⟩ := e2dIn_live (heq ▸ hl)
    rw [e2dIn, hff, hfl, Bool.or_self, kill_false] at heq
    exact Or.inr ⟨rfl, hff, hfl, hg.e2 hl2, heq⟩

/-- A live packet in E4 comes from E3, without its slot `i1` when slot `i0` has mispredicted. -/
theorem step_e4d (hg : Gated s) (hl : (s.next i).e4d.live = true) :
    i.freeze = false ∧ i.flushLowerWb = false ∧ s.i0PipeEn2 = true ∧
      (s.next i).e4d = s.e3d.kill false s.i0FlushFinalE3 := by
  have heq := (next_e4d (i := i) hg).eq_of_live hl
  obtain ⟨hl3, hf⟩ := e3dIn_live (heq ▸ hl)
  have hfl := e3dIn_flush (heq ▸ hl)
  rw [e3dIn, if_neg (by rw [hf]; decide), hfl, Bool.or_false] at heq
  exact ⟨hf, hfl, hg.e3 hl3, heq⟩

/-- A cycle brings only the pair of decode and the finished long operations into the pipeline. -/
theorem Seqs.next (h : Seqs P s) (hg : Gated s) (hcycle : P s.cycle) (hdiv : i.exuDivFinish = true → P s.divSeq)
    (hfpu : i.fpuRespValid = true → P s.fpuSeq) : Seqs P (s.next i) := by
  refine ⟨fun hl => ?_, fun hff hl => ?_, fun hl => ?_, fun hl => ?_, fun hl => ?_⟩
  · have heq := (next_e1d (i := i) hg).eq_of_live hl
    rw [heq] at hl ⊢
    by_cases hf : i.freeze = true
    · rw [if_pos hf] at hl ⊢
      exact h.e1 hl
    · rw [if_neg hf]
      exact hcycle
  · have heq := (next_e2d (i := i) hg).eq_of_live hl
    rw [heq] at hl ⊢
    by_cases hf : i.freeze = true
    · rw [if_pos hf] at hl ⊢
      rw [next_flushFinalE3_of_freeze hf] at hff
      exact h.e2 hff hl
    · rw [if_neg hf] at hl ⊢
      exact h.e1 (e1dIn_live hl).1
  · have heq := (next_e3d (i := i) hg).eq_of_live hl
    rw [heq] at hl ⊢
    by_cases hf : i.freeze = true
    · rw [if_pos hf] at hl ⊢
      exact h.e3 hl
    · rw [if_neg hf] at hl ⊢
      obtain ⟨hl2, hff, -⟩ := e2dIn_live hl
      exact h.e2 hff hl2
  · have heq := (next_e4d (i := i) hg).eq_of_live hl
    rw [heq] at hl ⊢
    obtain ⟨hl3, hf⟩ := e3dIn_live hl
    rw [e3dIn_seq hf]
    exact h.e3 hl3
  · have heq := (next_wbd (i := i) hg).eq_of_live hl
    rw [heq] at hl ⊢
    simp only [e4dIn]
    by_cases hd : i.exuDivFinish = true
    · rw [if_pos hd]
      exact hdiv hd
    · by_cases hr : i.fpuRespValid = true
      · rw [if_neg hd, if_pos hr]
        exact hfpu hr
      · rw [if_neg hd, if_neg hr]
        rcases e4dIn_live hl with ⟨hl4, -⟩ | hd' | hr'
        · exact h.e4 hl4
        · exact absurd hd' hd
        · exact absurd hr' hr

/-- A flush in a cycle that is not frozen empties the pipeline, but for the packet that moves to E2, which
`flush_final_e3` removes in the next cycle. -/
theorem seqs_of_flush (hg : Gated s) (hfl : i.flushLowerWb = true) (hf : i.freeze = false)
    (hexu : i.exuI0FlushFinal = true) (hdiv : i.exuDivFinish = false) (hfpu : i.fpuRespValid = false) :
    Seqs P (s.next i) := by
  have hoff : ∀ {p : Prop}, i.flushLowerWb = false → p := fun h => by
    rw [hfl] at h
    cases h
  refine ⟨fun hl => ?_, fun hff _ => ?_, fun hl => ?_, fun hl => ?_, fun hl => ?_⟩
  · rw [(next_e1d (i := i) hg).live_eq, if_neg (by rw [hf]; decide), dd_live] at hl
    exact hoff (of_i0Decode hl).2.1
  · simp [flushFinalE3, Dec.next, hf, hexu] at hff
  · rw [(next_e3d (i := i) hg).live_eq, if_neg (by rw [hf]; decide)] at hl
    exact hoff (e2dIn_live hl).2.2
  · rw [(next_e4d (i := i) hg).live_eq] at hl
    exact hoff (e3dIn_flush hl)
  · rw [(next_wbd (i := i) hg).live_eq] at hl
    rcases e4dIn_live hl with ⟨-, h⟩ | h | h
    · exact hoff h
    · rw [hdiv] at h
      cases h
    · rw [hfpu] at h
      cases h

/-- Nothing is decoded while a division runs or the floating-point unit is busy. -/
theorem idle_of_decode (h : s.i0DecodeD i = true) : i.exuDivStall = false ∧ i.fpuBusy = false := by
  have hb := (of_i0Decode h).1
  simp only [i0BlockD, postsyncStall, Bool.or_eq_false_iff] at hb
  exact ⟨hb.1.1.1.1.2.1.2.1, hb.1.1.1.1.2.2.1⟩

/-- A division is always in slot `i0`. -/
theorem divDecodeD_eq : s.divDecodeD i = s.i0DivDecodeD i := by
  have hi1 : (s.i1DecodeD i && (i1dp i).div) = false := by
    by_contra h
    rw [Bool.not_eq_false, Bool.and_eq_true] at h
    obtain ⟨hlegal, hblock⟩ := i1Decode_dp h.1
    have hpre := (i1dp_wf.div hlegal h.2).2.2.1
    simp [i1BlockD, hpre] at hblock
  simp [divDecodeD, i0DivDecodeD, hi1]

/-- The stages in the order of their packets, dead or live: the later the stage, the earlier the cycle of decode. -/
structure Ordered (s : Dec) : Prop where
  e1 : s.e1d.seq ≤ s.cycle
  e2 : s.e2d.seq ≤ s.e1d.seq
  e3 : s.e3d.seq ≤ s.e2d.seq
  e4 : s.e4d.seq ≤ s.e3d.seq

theorem ordered_reset : Ordered {} := ⟨Nat.le_refl 0, Nat.le_refl 0, Nat.le_refl 0, Nat.le_refl 0⟩

/-- A stage register ends up between its own packet and the one before it. -/
theorem rvdffs_seq_between {en : Bool} (din : DestPkt) {dout : DestPkt} (h : dout.seq ≤ din.seq) :
    dout.seq ≤ (rvdffs en din dout).seq ∧ (rvdffs en din dout).seq ≤ din.seq := by
  cases en
  · exact ⟨Nat.le_refl _, h⟩
  · exact ⟨h, Nat.le_refl _⟩

/-- A cycle keeps the stages in the order of their packets. -/
theorem Ordered.next (h : Ordered s) (i : DecIn) : Ordered (s.next i) := by
  have h1 : _ ∧ (s.next i).e1d.seq ≤ s.cycle := rvdffs_seq_between (s.dd i) h.e1
  have h2 : _ ∧ (s.next i).e2d.seq ≤ s.e1d.seq := rvdffs_seq_between s.e1dIn h.e2
  have h3 : _ ∧ (s.next i).e3d.seq ≤ s.e2d.seq := rvdffs_seq_between (s.e2dIn i) h.e3
  have h4 : (s.next i).e4d.seq ≤ s.e3d.seq := by
    have hin : (s.e3dIn i).seq ≤ s.e3d.seq := by
      unfold e3dIn
      split_ifs
      · exact Nat.zero_le _
      · exact Nat.le_refl _
    simp only [Dec.next]
    cases s.i0E4CtlEn i
    · exact h.e4
    · exact hin
  exact ⟨Nat.le_succ_of_le h1.2, Nat.le_trans h2.2 h1.1, Nat.le_trans h3.2 h2.1, Nat.le_trans h4 h3.1⟩

end Dec

/-! ## The core -/

namespace Cpu

open Dec

variable {s : Cpu} {i : CpuIn} {P : Nat → Prop}

/-- What holds of the units in every run, whatever the inputs are. -/
structure Sound (s : Cpu) : Prop where
  gated : s.dec.Gated
  wf : s.dec.WfPkts
  ordered : s.dec.Ordered
  lsc : s.lsu.lsc.Gated
  tags : s.lsu.Tags (· ≤ s.dec.cycle)
  div : s.div.Running

theorem sound_reset (m : DccmMem) : Sound { mem := m } :=
  ⟨gated_reset, wfPkts_reset, ordered_reset, Lsc.gated_reset, LsuBus.tags_reset, DivCtl.running_reset⟩

/-- A division is issued only while none runs. -/
theorem not_runState_of_divIn (h : (s.divIn i).valid = true) : s.div.runState = false := by
  have hd : s.dec.i0DivDecodeD (s.decIn i) = true := divDecodeD_eq.symm.trans h
  simp only [i0DivDecodeD, Bool.and_eq_true] at hd
  exact (idle_of_decode (legalDecode_decode hd.1)).1

/-- A cycle keeps the units sound. -/
theorem Sound.next (h : Sound s) (i : CpuIn) : Sound (s.next i) := by
  refine ⟨h.gated.next _, h.wf.next _, h.ordered.next _, h.lsc.next _, ?_, h.div.next not_runState_of_divIn⟩
  exact LsuBus.Tags.next (h.tags.mono fun _ => Nat.le_succ_of_le) h.lsc fun _ => Nat.le_succ _

/-- Every state of a run is sound. -/
theorem sound_run (m : DccmMem) (w : Nat → CpuIn) (n : Nat) : Sound ((machine m).run w n) :=
  Machine.run_invariant (E := fun _ _ => True) (sound_reset m) (fun _ i h _ => h.next i) (fun _ => trivial) n

/-- The cycle counter counts the steps of a run. -/
theorem run_cycle (m : DccmMem) (w : Nat → CpuIn) (n : Nat) : ((machine m).run w n).dec.cycle = n := by
  induction n with
  | zero => rfl
  | succ n ih => exact congrArg (· + 1) ih

/-- Everything that can still have an effect was decoded in a cycle of which `P` holds.  A division that a flush has
reached but not yet stopped does not count. -/
structure InFlight (P : Nat → Prop) (s : Cpu) : Prop where
  dec : s.dec.Seqs P
  lsu : s.lsu.Tags P
  div : s.div.runState = true → s.div.flushLowerFf = false → P s.dec.divSeq
  fpu : s.fpu.busy = true → P s.dec.fpuSeq

/-- A division that finishes runs and is not flushed. -/
theorem InFlight.of_divFinish (h : InFlight P s) (hs : Sound s) (hd : s.divFinish i = true) : P s.dec.divSeq := by
  obtain ⟨hrun, -, hff⟩ := hs.div.of_finish hd
  exact h.div hrun hff

/-- A floating-point answer is for the operation at work. -/
theorem InFlight.of_fpuRespValid (h : InFlight P s) (ha : s.fpu.Answers i.fpu) (hr : s.fpuRespValid i = true) :
    P s.dec.fpuSeq := by
  refine h.fpu ?_
  simp only [fpuRespValid, Fpu.respValid, Bool.and_eq_true] at hr
  rw [Fpu.busy, ha hr.1, Bool.or_true]

/-- A cycle adds only what is decoded in it to what is in flight. -/
theorem InFlight.next (h : InFlight P s) (hs : Sound s) (hcycle : P s.dec.cycle) (ha : s.fpu.Answers i.fpu) :
    InFlight P (s.next i) := by
  refine ⟨h.dec.next hs.gated hcycle (h.of_divFinish hs) (h.of_fpuRespValid ha),
    h.lsu.next hs.lsc fun _ => hcycle, fun hrun hff => ?_, fun hbusy => ?_⟩
  · simp only [next_div, DivCtl.next, DivCtl.runIn, Bool.and_eq_true, Bool.or_eq_true, Bool.not_eq_true'] at hrun
    simp only [next_dec, Dec.next]
    cases hd : s.dec.i0DivDecodeD (s.decIn i) with
    | true => exact hcycle
    | false =>
      have hvalid : (s.divIn i).valid = false := divDecodeD_eq.trans hd
      rw [hvalid] at hrun
      exact h.div (hrun.1.1.resolve_left (by decide)) hrun.2
  · simp only [next_dec, Dec.next]
    cases hd : s.dec.i0FpuDecodeD (s.decIn i) with
    | true => exact hcycle
    | false =>
      refine h.fpu ?_
      have hreq : (s.fpuIn i).reqValid = false := hd
      simp only [next_fpu, Fpu.next, hreq, Fpu.busy] at hbusy ⊢
      grind

/-- A flush in a cycle that is not frozen: nothing decoded up to this cycle has an effect from the next cycle on. -/
theorem inFlight_of_flush (hs : Sound s) (hfl : s.flushLowerWb = true) (hf : s.freeze i = false) :
    InFlight P (s.next i) := by
  have hdiv : s.divFinish i = false := by
    by_contra hd
    rw [Bool.not_eq_false] at hd
    exact absurd (hs.div.of_finish hd).2.1 (by simp [hfl])
  refine ⟨seqs_of_flush hs.gated hfl hf ?_ hdiv ?_, ?_, fun _ hff => ?_, fun hbusy => ?_⟩
  · simp [decIn, Exu.i0FlushFinal, hfl]
  · simp [decIn, fpuRespValid, Fpu.respValid, fpuCtl, hfl]
  · refine LsuBus.tags_of_dc2Up hs.lsc hf ?_ (fun _ h => ?_) (fun _ h => ?_)
    · simp [flushes, hfl]
    · simp [flushes, hfl] at h
    · simp [flushes, hfl] at h
  · simp [DivCtl.next, divIn, hfl] at hff
  · simp [Fpu.next, fpuIn, fpuCtl, hfl, Fpu.busy] at hbusy

/-- A load waits for the bus in the cycle of a flush exactly when that cycle is frozen. -/
theorem freeze_of_flush (hfl : s.flushLowerWb = true) :
    s.freeze i = (s.lsu.bus.loadPending && !i.lsu.mmioReady) := by
  have hreq : s.lsu.loadRequestDc2 (s.lsuCtl i) = false := by
    simp [LsuBus.loadRequestDc2, lsuCtl, flushes, hfl]
  have hready : (s.lsuCtl i).mmioReady = i.lsu.mmioReady := rfl
  rw [freeze, LsuBus.freezeDc3, hreq, hready]
  cases s.lsu.bus.loadPending <;> cases i.lsu.mmioReady <;> rfl

end Cpu

end SocRV
