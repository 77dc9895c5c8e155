import SocRV.Core.FpRetire

/-!
# Instructions retire in program order

The instruction that retires is older than everything that retires later, and in a cycle in which an instruction is
decoded everything that has retired is older than it.  What is older than it and has not retired stands in E1 to
write-back: `Behind` says what is known of these.
-/

namespace SocRV

namespace Fpu

variable {s : Fpu} {i : FpuIn}

/-- An operation waits for `fpnew` to accept it or for its answer, not for both. -/
def One (s : Fpu) : Prop := s.activeQ = true → s.pendingQ = false

/-- A cycle keeps an operation from waiting for both. -/
theorem One.next (h : One s) : One (s.next i) := by
  unfold One at h ⊢
  cases hf : i.flush with
  | true => simp [Fpu.next, hf]
  | false =>
    cases ha : s.activeQ with
    | true => simp [Fpu.next, hf, reqReady, ha, h ha]
    | false => cases hp : s.pendingQ <;> simp [Fpu.next, hf, reqReady, ha, hp]

/-- An answer ends the operation: the unit is idle afterwards. -/
theorem One.next_idle (h : One s) (ha : s.activeQ = true) (hv : i.fpOutValid = true) : (s.next i).busy = false := by
  cases hf : i.flush <;> simp [Fpu.next, busy, hf, reqReady, ha, hv, h ha]

end Fpu

namespace FpCpu

open DestPkt Dec

variable {s : FpCpu} {i : FpCpuIn}

/-! ## What retires -/

/-- The instruction that retires next is a division or a floating-point operation that completes, or the one in E4. -/
theorem next_retires (h : FpSound s) (hv : (s.next i).i0ValidWb = true) :
    ((s.decIn i).exuDivFinish = true ∧ s.cpu.div.runState = true ∧
      (s.next i).cpu.dec.wbd.seq = s.cpu.dec.divSeq) ∨
    ((s.decIn i).exuDivFinish = false ∧ (s.decIn i).fpuRespValid = true ∧
      (s.next i).cpu.dec.wbd.seq = s.cpu.dec.fpuSeq) ∨
    ((s.decIn i).exuDivFinish = false ∧ (s.decIn i).fpuRespValid = false ∧ s.p4.valid = true ∧ s.p4.fpu = false ∧
      s.p4.div = false ∧ (s.next i).cpu.dec.wbd.seq = s.p4.seq ∧ (s.next i).i0InstWb = s.p4.inst ∧
      (s.next i).csrWb = s.p4.csr) := by
  have hvalid := valid_of_next_i0ValidWb h.wb.gate hv
  have hwbd := next_wbd_valid h.sound.gated hvalid
  have heq : (s.next i).cpu.dec.wbd = s.cpu.dec.e4dIn (s.decIn i) :=
    (next_wbd (i := s.decIn i) h.sound.gated).eq_of_live (live_of_i0valid hwbd)
  have hvalid' : s.cpu.dec.tluI0ValidE4 (s.decIn i) = true := hvalid
  rcases next_wb h.sound.gated hwbd with ⟨hd, -, -⟩ | ⟨hd, hr, -⟩ | ⟨hd, hr, -, hv4, hfpu, hinst, hcsr, hseq⟩
  · refine Or.inl ⟨hd, (h.sound.div.of_finish hd).1, ?_⟩
    rw [heq, e4dIn, hd]
    rfl
  · refine Or.inr (Or.inl ⟨hd, hr, ?_⟩)
    rw [heq, e4dIn, hd, hr]
    rfl
  · refine Or.inr (Or.inr ⟨hd, hr, hv4, hfpu, ?_, hseq, hinst, hcsr⟩)
    rw [tluI0ValidE4, hd, hr, Bool.or_false, Bool.or_false, Bool.and_eq_true, Bool.and_eq_true, Bool.and_eq_true,
      Bool.not_eq_true'] at hvalid'
    exact hvalid'.1.1.2

/-- The cycle in which the instruction in E4 was decoded is over. -/
theorem p4_seq_lt (h : s.cpu.Sound) (hs : s.cpu.dec.Strict) (hv : s.p4.valid = true) :
    s.p4.seq < s.cpu.dec.cycle :=
  Nat.lt_of_lt_of_le (hs.e4 (live_of_i0valid hv))
    (Nat.le_trans h.ordered.e3 (Nat.le_trans h.ordered.e2 h.ordered.e1))

/-! ## When -/

/-- What is known of the times at which the instructions were decoded. -/
structure Timed (s : FpCpu) : Prop where
  strict : s.cpu.dec.Strict
  divSeq : s.cpu.dec.divSeq ≤ s.cpu.dec.cycle
  fpuSeq : s.cpu.dec.fpuSeq ≤ s.cpu.dec.cycle
  one : s.cpu.fpu.One
  fpuWen : s.cpu.dec.fpuWenWb = true → s.cpu.fpu.busy = false ∧ s.cpu.div.runState = false
  divWen : s.cpu.dec.divWenWb = true → s.cpu.fpu.busy = false ∧ s.cpu.div.runState = false
  past : s.i0ValidWb = true → s.cpu.dec.wbd.seq < s.cpu.dec.cycle
  div : s.cpu.div.runState = true → s.i0ValidWb = true → s.cpu.dec.wbd.seq < s.cpu.dec.divSeq

theorem timed_reset (m : DccmMem) : Timed { cpu := { mem := m } } :=
  ⟨strict_reset, Nat.le_refl 0, Nat.le_refl 0, nofun, nofun, nofun, nofun, nofun⟩

/-- Decode issues no long operation while one is at work. -/
theorem not_longDecode_of_busy (hb : s.cpu.fpu.busy = true ∨ s.cpu.div.runState = true) :
    s.cpu.dec.i0FpuDecodeD (s.decIn i) = false ∧ s.cpu.dec.i0DivDecodeD (s.decIn i) = false := by
  have hdec : s.cpu.dec.i0DecodeD (s.decIn i) = false := by
    by_contra hd
    rw [Bool.not_eq_false] at hd
    obtain ⟨hdiv, hfpu⟩ := idle_of_decode hd
    rcases hb with hb | hb
    · exact absurd (hfpu.symm.trans hb) (by decide)
    · exact absurd (hdiv.symm.trans hb) (by decide)
  simp [i0FpuDecodeD, i0DivDecodeD, Dec.i0LegalDecodeD, hdec]

/-- A division runs because it did or because it is issued. -/
theorem of_next_runState (hr : (s.next i).cpu.div.runState = true) :
    (s.cpu.div.runState = true ∨ s.cpu.dec.i0DivDecodeD (s.decIn i) = true) ∧ (s.decIn i).exuDivFinish = false := by
  have hnext : (s.next i).cpu.div = s.cpu.div.next (s.cpu.divIn (s.cpuIn i)) := rfl
  have hvalid : (s.cpu.divIn (s.cpuIn i)).valid = s.cpu.dec.i0DivDecodeD (s.decIn i) := divDecodeD_eq
  have hfin : s.cpu.div.finish (s.cpu.divIn (s.cpuIn i)) = (s.decIn i).exuDivFinish := rfl
  rw [hnext] at hr
  simp only [DivCtl.next, DivCtl.runIn, hvalid, hfin, Bool.and_eq_true, Bool.or_eq_true, Bool.not_eq_true'] at hr
  exact ⟨hr.1.1.symm, hr.1.2⟩

/-- The division of the divider is the one decoded last. -/
theorem next_divSeq : (s.next i).cpu.dec.divSeq =
    if s.cpu.dec.i0DivDecodeD (s.decIn i) then s.cpu.dec.cycle else s.cpu.dec.divSeq := rfl

/-- The operation of the floating-point unit is the one decoded last. -/
theorem next_fpuSeq : (s.next i).cpu.dec.fpuSeq =
    if s.cpu.dec.i0FpuDecodeD (s.decIn i) then s.cpu.dec.cycle else s.cpu.dec.fpuSeq := rfl

/-- A division that runs did so before or is decoded now. -/
theorem next_divSeq_of_run {P : Nat → Prop} (hr : (s.next i).cpu.div.runState = true) (hnow : P s.cpu.dec.cycle)
    (hold : s.cpu.div.runState = true → P s.cpu.dec.divSeq) : P (s.next i).cpu.dec.divSeq := by
  rw [next_divSeq]
  cases hd : s.cpu.dec.i0DivDecodeD (s.decIn i) with
  | true => exact hnow
  | false =>
    exact hold ((of_next_runState hr).1.resolve_right fun hdec => Bool.false_ne_true (hd.symm.trans hdec))

/-- A floating-point operation that is under way was so before or is decoded now. -/
theorem next_fpuSeq_of_busy {P : Nat → Prop} (hb : (s.next i).cpu.fpu.busy = true) (hnow : P s.cpu.dec.cycle)
    (hold : s.cpu.fpu.busy = true → P s.cpu.dec.fpuSeq) : P (s.next i).cpu.dec.fpuSeq := by
  rw [next_fpuSeq]
  cases hd : s.cpu.dec.i0FpuDecodeD (s.decIn i) with
  | true => exact hnow
  | false =>
    exact hold ((Cpu.of_next_busy hb).resolve_right fun hdec => Bool.false_ne_true (hd.symm.trans hdec))

section Step

variable (h : Timed s) (hs : FpSound s) (he : Env s i)

include h

include hs he

/-- With the answer of the FPU in write-back no long operation is at work. -/
theorem Timed.fpuWen_next (hw : (s.next i).cpu.dec.fpuWenWb = true) :
    (s.next i).cpu.fpu.busy = false ∧ (s.next i).cpu.div.runState = false := by
  have hr : (s.decIn i).fpuRespValid = true := hw
  have hvalid : (s.cpu.fpuIn (s.cpuIn i)).fpOutValid = true := (Bool.and_eq_true_iff.mp hr).1
  refine ⟨h.one.next_idle (he.answers hvalid).1 hvalid, ?_⟩
  have hbusy := Cpu.busy_of_respValid (answers_of_env he) hr
  have hdec := (not_longDecode_of_busy (i := i) (Or.inl hbusy)).2
  by_contra hrun
  rw [Bool.not_eq_false] at hrun
  rcases (of_next_runState hrun).1 with hrun | hd
  · rw [hs.alone.apart hbusy] at hrun
    cases hrun
  · rw [hdec] at hd
    cases hd

omit h he in
/-- With the quotient in write-back no long operation is at work. -/
theorem Timed.divWen_next (hw : (s.next i).cpu.dec.divWenWb = true) :
    (s.next i).cpu.fpu.busy = false ∧ (s.next i).cpu.div.runState = false := by
  have hd : (s.decIn i).exuDivFinish = true := hw
  have hrun := (hs.sound.div.of_finish hd).1
  constructor
  · by_contra hb
    rw [Bool.not_eq_false] at hb
    rcases Cpu.of_next_busy hb with hb | hreq
    · rw [hs.alone.apart hb] at hrun
      cases hrun
    · exact absurd ((not_longDecode_of_busy (i := i) (Or.inr hrun)).1.symm.trans hreq) (by decide)
  · by_contra hrun'
    rw [Bool.not_eq_false] at hrun'
    rw [(of_next_runState hrun').2] at hd
    cases hd

omit he in
/-- What is valid in write-back was decoded before. -/
theorem Timed.past_next (hv : (s.next i).i0ValidWb = true) :
    (s.next i).cpu.dec.wbd.seq < (s.next i).cpu.dec.cycle := by
  have hcycle : (s.next i).cpu.dec.cycle = s.cpu.dec.cycle + 1 := rfl
  rw [hcycle]
  rcases next_retires hs hv with ⟨-, -, hseq⟩ | ⟨-, -, hseq⟩ | ⟨-, -, hv4, -, -, hseq, -, -⟩
  · rw [hseq]
    exact Nat.lt_succ_of_le h.divSeq
  · rw [hseq]
    exact Nat.lt_succ_of_le h.fpuSeq
  · rw [hseq]
    exact Nat.lt_succ_of_lt (p4_seq_lt hs.sound h.strict hv4)

/-- What is in E4 when a division runs is the division itself, so nothing retires; when it is issued, what retires next
was decoded before. -/
theorem Timed.div_next (hr : (s.next i).cpu.div.runState = true) (hv : (s.next i).i0ValidWb = true) :
    (s.next i).cpu.dec.wbd.seq < (s.next i).cpu.dec.divSeq := by
  obtain ⟨hrun, hfin⟩ := of_next_runState hr
  rcases next_retires hs hv with ⟨hd, -, -⟩ | ⟨-, hresp, -⟩ | ⟨-, -, hv4, -, hdiv4, hseq, -, -⟩
  · rw [hfin] at hd
    cases hd
  · have hbusy := Cpu.busy_of_respValid (answers_of_env he) hresp
    rcases hrun with hrun | hd
    · rw [hs.alone.apart hbusy] at hrun
      cases hrun
    · rw [(not_longDecode_of_busy (i := i) (Or.inl hbusy)).2] at hd
      cases hd
  · rcases hrun with hrun | hd
    · have hd4 : s.p4.div = true := ((hs.alone.div (Or.inl hrun)).e4 (live_of_i0valid hv4)).2.1
      rw [hdiv4] at hd4
      cases hd4
    · rw [hseq, next_divSeq, hd]
      exact p4_seq_lt hs.sound h.strict hv4

/-- A cycle keeps what is known of the times of decode. -/
theorem Timed.next : Timed (s.next i) := by
  refine ⟨h.strict.next hs.sound.ordered hs.sound.gated _, ?_, ?_, h.one.next, h.fpuWen_next hs he,
    Timed.divWen_next hs, h.past_next hs, h.div_next hs he⟩
  · rw [next_divSeq]
    cases s.cpu.dec.i0DivDecodeD (s.decIn i)
    · exact Nat.le_succ_of_le h.divSeq
    · exact Nat.le_succ _
  · rw [next_fpuSeq]
    cases s.cpu.dec.i0FpuDecodeD (s.decIn i)
    · exact Nat.le_succ_of_le h.fpuSeq
    · exact Nat.le_succ _

end Step

/-- In every run that keeps to its surroundings the times of decode are as said. -/
theorem timed_run {m : DccmMem} {w : Nat → FpCpuIn}
    (hw : (machine m).Respects (fun s i => Env s i ∧ s.LoadsEnabled i) w) (n : Nat) : Timed ((machine m).run w n) := by
  induction n with
  | zero => exact timed_reset m
  | succ n ih => exact ih.next (fpSound_run hw n) (hw n).1

/-! ## Each retires before the younger ones -/

/-- Everything that is still to retire was decoded after cycle `q`; the packet of a long operation does not retire. -/
structure Later (q : Nat) (s : FpCpu) : Prop where
  pipe : InPipe (fun p => q < p.seq ∨ p.fpu = true ∨ p.div = true) s
  fpu : s.cpu.fpu.busy = true → q < s.cpu.dec.fpuSeq
  div : s.cpu.div.runState = true → q < s.cpu.dec.divSeq
  past : q < s.cpu.dec.cycle

/-- When an instruction retires, everything that is still to retire is younger. -/
theorem later_of_retires (h : FpSound s) (ht : Timed s) (hv : s.i0ValidWb = true) :
    Later s.cpu.dec.wbd.seq s := by
  have hlive : s.cpu.dec.wbd.live = true := live_of_i0valid (h.wb.valid hv).1
  cases hfpu : s.cpu.dec.fpuWenWb with
  | true =>
    obtain ⟨hstall, -, -, -⟩ := h.alone.fpuWen hfpu
    obtain ⟨hbusy, hrun⟩ := ht.fpuWen hfpu
    have honly := h.alone.fpu (Or.inr hstall)
    refine ⟨⟨fun hp => ?_, fun hp => ?_, fun hp => ?_, fun hp => ?_⟩, fun hb => ?_, fun hr => ?_, ht.past hv⟩
    · exact Or.inr (Or.inl (honly.e1 (live_of_i0valid hp)).2.1)
    · exact Or.inr (Or.inl (honly.e2 (live_of_i0valid hp)).2.1)
    · exact Or.inr (Or.inl (honly.e3 (live_of_i0valid hp)).2.1)
    · exact Or.inr (Or.inl (honly.e4 (live_of_i0valid hp)).2.1)
    · rw [hbusy] at hb
      cases hb
    · rw [hrun] at hr
      cases hr
  | false =>
    cases hdiv : s.cpu.dec.divWenWb with
    | true =>
      obtain ⟨hstall, -, -⟩ := h.alone.divWen hdiv
      obtain ⟨hbusy, hrun⟩ := ht.divWen hdiv
      have honly := h.alone.div (Or.inr hstall)
      refine ⟨⟨fun hp => ?_, fun hp => ?_, fun hp => ?_, fun hp => ?_⟩, fun hb => ?_, fun hr => ?_, ht.past hv⟩
      · exact Or.inr (Or.inr (honly.e1 (live_of_i0valid hp)).2.1)
      · exact Or.inr (Or.inr (honly.e2 (live_of_i0valid hp)).2.1)
      · exact Or.inr (Or.inr (honly.e3 (live_of_i0valid hp)).2.1)
      · exact Or.inr (Or.inr (honly.e4 (live_of_i0valid hp)).2.1)
      · rw [hbusy] at hb
        cases hb
      · rw [hrun] at hr
        cases hr
    | false =>
      obtain ⟨h3, h4⟩ := ht.strict.wb hlive hdiv hfpu
      have h2 := Nat.lt_of_lt_of_le h3 h.sound.ordered.e3
      have h1 := Nat.lt_of_lt_of_le h2 h.sound.ordered.e2
      refine ⟨⟨fun _ => Or.inl h1, fun _ => Or.inl h2, fun _ => Or.inl h3,
        fun hp => Or.inl (h4 (live_of_i0valid hp))⟩, fun hb => ?_, fun hr => ht.div hr hv, ht.past hv⟩
      rw [h.alone.fpuWb (Or.inl hb) hlive] at hfpu
      cases hfpu

/-- A cycle keeps everything that is to retire behind cycle `q`. -/
theorem Later.next {q : Nat} (h : Later q s) (hs : FpSound s) (i : FpCpuIn) : Later q (s.next i) := by
  refine ⟨h.pipe.next hs.sound.gated fun _ => Or.inl h.past, fun hb => ?_, fun hr => ?_,
    Nat.lt_succ_of_lt h.past⟩
  · exact next_fpuSeq_of_busy hb h.past h.fpu
  · exact next_divSeq_of_run hr h.past h.div

/-- What retires next was decoded after cycle `q`. -/
theorem Later.lt_of_retires {q : Nat} (h : Later q s) (hs : FpSound s) (he : Env s i)
    (hv : (s.next i).i0ValidWb = true) : q < (s.next i).cpu.dec.wbd.seq := by
  rcases next_retires hs hv with ⟨-, hrun, hseq⟩ | ⟨-, hresp, hseq⟩ | ⟨-, -, hv4, hfpu, hdiv, hseq, -, -⟩
  · rw [hseq]
    exact h.div hrun
  · rw [hseq]
    exact h.fpu (Cpu.busy_of_respValid (answers_of_env he) hresp)
  · rw [hseq]
    rcases h.pipe.e4 hv4 with hlt | hf | hd
    · exact hlt
    · rw [hfpu] at hf
      cases hf
    · rw [hdiv] at hd
      cases hd

/-- The cycle counter counts the steps of a run. -/
theorem run_cycle (m : DccmMem) (w : Nat → FpCpuIn) (n : Nat) : ((machine m).run w n).cpu.dec.cycle = n := by
  rw [run_cpu]
  exact Cpu.run_cycle m _ n

section Run

variable {m : DccmMem} {w : Nat → FpCpuIn} (hw : (machine m).Respects (fun s i => Env s i ∧ s.LoadsEnabled i) w)

include hw

/-- What has retired is older than everything that retires later. -/
theorem retires_lt {k n : Nat} (hk : k < n) (hv : ((machine m).run w k).i0ValidWb = true)
    (hv' : ((machine m).run w n).i0ValidWb = true) :
    ((machine m).run w k).cpu.dec.wbd.seq < ((machine m).run w n).cpu.dec.wbd.seq := by
  obtain ⟨n, rfl⟩ : ∃ j, n = j + 1 := ⟨n - 1, by omega⟩
  have hlater : Later ((machine m).run w k).cpu.dec.wbd.seq ((machine m).run w n) := by
    have hkn : k ≤ n := Nat.le_of_lt_succ hk
    clear hk hv'
    induction n, hkn using Nat.le_induction with
    | base => exact later_of_retires (fpSound_run hw k) (timed_run hw k) hv
    | succ n _ ih => exact ih.next (fpSound_run hw n) _
  exact hlater.lt_of_retires (fpSound_run hw n) (hw n).1 hv'

/-- In every run the instructions retire in the order in which they were decoded. -/
theorem retires_in_order (n : Nat) :
    ((machine m).events FpCpu.retires w n).Pairwise (fun e e' => e.1 < e'.1) := by
  refine Machine.pairwise_events (fun k => ?_) (fun k n hk e he e' he' => ?_) n
  · unfold retires
    split_ifs
    · exact List.pairwise_singleton _ _
    · exact List.Pairwise.nil
  · obtain ⟨hv, rfl⟩ := mem_retires he
    obtain ⟨hv', rfl⟩ := mem_retires he'
    exact retires_lt hw hk hv hv'

/-- What has retired by cycle `k` was decoded before it. -/
theorem retires_past {k : Nat} {e : Nat × FpEffect} (he : e ∈ ((machine m).run w k).retires (w k)) : e.1 < k := by
  obtain ⟨hv, rfl⟩ := mem_retires he
  have hlt := (timed_run hw k).past hv
  rw [run_cycle] at hlt
  exact hlt

end Run

/-! ## What is older and has not retired -/

/-- At cycle `t` or later: what was decoded before `t` and has not retired stands in E1 to write-back, is no long
operation, and satisfies `Q`. -/
structure Behind (t : Nat) (Q : BitVec 32 → CsrPkt → Prop) (s : FpCpu) : Prop where
  pipe : InPipe (fun p => p.seq < t → Q p.inst p.csr) s
  wb : s.i0ValidWb = true → s.cpu.dec.wbd.seq < t → s.cpu.dec.fpuWenWb = false → s.cpu.dec.divWenWb = false →
    Q s.i0InstWb s.csrWb
  fpu : s.cpu.fpu.busy = true → t ≤ s.cpu.dec.fpuSeq
  fpuWb : s.cpu.dec.fpuWenWb = true → t ≤ s.cpu.dec.wbd.seq
  now : t ≤ s.cpu.dec.cycle

variable {t : Nat} {Q : BitVec 32 → CsrPkt → Prop}

/-- A cycle keeps what was decoded before `t` in the stages. -/
theorem Behind.next (h : Behind t Q s) (hs : FpSound s) (he : Env s i) : Behind t Q (s.next i) := by
  refine ⟨h.pipe.next hs.sound.gated fun _ hlt => absurd h.now (Nat.not_le_of_lt hlt), fun hv hlt hfpu hdiv => ?_,
    fun hb => ?_, fun hw => ?_, Nat.le_succ_of_le h.now⟩
  · rcases next_retires hs hv with ⟨hd, -, -⟩ | ⟨-, hr, -⟩ | ⟨-, -, hv4, -, -, hseq, hinst, hcsr⟩
    · exact absurd (hd.symm.trans hdiv) (by decide)
    · exact absurd (hr.symm.trans hfpu) (by decide)
    · rw [hinst, hcsr]
      exact h.pipe.e4 hv4 (hseq ▸ hlt)
  · exact next_fpuSeq_of_busy hb h.now h.fpu
  · have hbusy := Cpu.busy_of_respValid (answers_of_env he) hw
    obtain ⟨-, -, hseq, -⟩ := hs.alone.fpuWen_next hs.sound (answers_of_env he) hw
    have hfpuSeq : (s.next i).cpu.dec.fpuSeq = s.cpu.dec.fpuSeq := by
      rw [next_fpuSeq, (not_longDecode_of_busy (i := i) (Or.inl hbusy)).1]
      rfl
    exact Nat.le_trans (h.fpu hbusy) (Nat.le_of_eq (hfpuSeq.symm.trans hseq.symm))

/-- The effect of an older instruction is that of an instruction with `Q`, or none. -/
theorem Behind.effect (h : Behind t Q s) {e : Nat × FpEffect} (he : e ∈ s.retires i) (hlt : e.1 < t) :
    e.2 = .none ∨ ∃ inst csr, Q inst csr ∧ ((fpload inst = true ∧ ∃ data, e.2 = .load (instRd inst) data) ∨
      (csr.wen = true ∧ ∃ data, e.2 = .csr csr.waddr data)) := by
  obtain ⟨hv, rfl⟩ := mem_retires he
  have hfpu : s.cpu.dec.fpuWenWb = false := by
    by_contra hw
    rw [Bool.not_eq_false] at hw
    exact absurd (h.fpuWb hw) (Nat.not_le_of_lt hlt)
  cases hdiv : s.cpu.dec.divWenWb with
  | true => exact Or.inl (by simp [FpCpu.effect, hfpu, hdiv])
  | false =>
    have hQ := h.wb hv hlt hfpu hdiv
    cases hload : fpload s.i0InstWb with
    | true => exact Or.inr ⟨_, _, hQ, Or.inl ⟨hload, _, by simp only [FpCpu.effect, hfpu, hdiv, hload]; rfl⟩⟩
    | false =>
      cases hcsr : (s.csrWb.wen && !s.triggerHitWb) with
      | true =>
        exact Or.inr ⟨_, _, hQ, Or.inr ⟨(Bool.and_eq_true_iff.mp hcsr).1, _,
          by simp only [FpCpu.effect, hfpu, hdiv, hload, hcsr]; rfl⟩⟩
      | false => exact Or.inl (by simp [FpCpu.effect, hfpu, hdiv, hload, hcsr])

/-- Next to decode there is no long operation at work or in write-back. -/
theorem behind_of_decode (hs : FpSound s) (hd : s.i0DecodeD i = true)
    (hpipe : InPipe (fun p => Q p.inst p.csr) s)
    (hwb : s.i0ValidWb = true → s.cpu.dec.fpuWenWb = false → s.cpu.dec.divWenWb = false → Q s.i0InstWb s.csrWb) :
    Behind s.cpu.dec.cycle Q s := by
  obtain ⟨hb, -⟩ := of_i0Decode hd
  have hidle : (s.decIn i).fpuBusy = false := (idle_of_decode hd).2
  refine ⟨⟨fun hv _ => hpipe.e1 hv, fun hv _ => hpipe.e2 hv, fun hv _ => hpipe.e3 hv, fun hv _ => hpipe.e4 hv⟩,
    fun hv _ => hwb hv, fun hbusy => ?_, fun hw => ?_, Nat.le_refl _⟩
  · exact absurd (hidle.symm.trans hbusy) (by decide)
  · have hstall := (hs.alone.fpuWen hw).1
    simp only [i0BlockD, postsyncStall, Bool.or_eq_false_iff] at hb
    have hff : s.cpu.dec.fpuStallFf = false := hb.1.1.1.1.2.2.2
    rw [hff] at hstall
    cases hstall

/-- Behind an instruction that waits for the older ones there is none. -/
theorem behind_of_presync (hs : FpSound s) (hd : s.i0DecodeD i = true) (hp : i0Presync (s.decIn i) = true)
    (hdiv : (s.i0dp i).div = false) : Behind s.cpu.dec.cycle Q s := by
  obtain ⟨h1, h2, h3, h4, hw⟩ := not_live_of_priorInflight (idle_of_presync hd hp hdiv)
  refine behind_of_decode hs hd ⟨fun hv => ?_, fun hv => ?_, fun hv => ?_, fun hv => ?_⟩ fun hv _ _ => ?_
  · exact absurd (live_of_i0valid hv) (by rw [h1]; decide)
  · exact absurd (live_of_i0valid hv) (by rw [h2]; decide)
  · exact absurd (live_of_i0valid hv) (by rw [h3]; decide)
  · exact absurd (live_of_i0valid hv) (by rw [h4]; decide)
  · exact absurd (live_of_i0valid (hs.wb.valid hv).1) (by rw [hw]; decide)

section Run

variable {m : DccmMem} {w : Nat → FpCpuIn} (hw : (machine m).Respects (fun s i => Env s i ∧ s.LoadsEnabled i) w)

include hw

/-- What is read of the floating-point state in a cycle of decode is what the older instructions leave, whenever they
retire, if what is older and has not retired by then leaves it alone. -/
theorem read_at_decode {β : Type*} (read : FpArch → β) {N : Nat} (hN : t ≤ N)
    (hb : Behind ((machine m).run w t).cpu.dec.cycle Q ((machine m).run w t))
    (hload : ∀ inst csr, Q inst csr → fpload inst = true → ∀ (a : FpArch) data,
      read a = read ((machine m).run w t).arch →
      read (a.step (.load (instRd inst) data)) = read ((machine m).run w t).arch)
    (hcsr : ∀ inst csr, Q inst csr → csr.wen = true → ∀ (a : FpArch) data,
      read a = read ((machine m).run w t).arch → read (a.writeCsr csr.waddr data) = read ((machine m).run w t).arch) :
    read ((machine m).run w t).arch =
      read (applied FpArch.step (machine m).reset.arch (olderThan t ((machine m).events FpCpu.retires w N))) := by
  rw [run_cycle] at hb
  have hbehind : ∀ k, t ≤ k → Behind t Q ((machine m).run w k) := by
    intro k hk
    induction k, hk using Nat.le_induction with
    | base => exact hb
    | succ k _ ih => exact ih.next (fpSound_run hw k) (hw k).1
  refine Machine.read_in_order (fun k => (fpSound_run hw k).arch_next) hN (fun k hk e he => ?_)
    (fun k hk e he hlt a ha => ?_)
  · exact Nat.lt_trans (retires_past hw he) hk
  · rcases (hbehind k hk).effect he hlt with h | ⟨inst, csr, hQ, ⟨hl, data, h⟩ | ⟨hwen, data, h⟩⟩
    · rw [h]
      exact ha
    · rw [h]
      exact hload inst csr hQ hl a data ha
    · rw [h]
      exact hcsr inst csr hQ hwen a data ha

end Run

end FpCpu

end SocRV
