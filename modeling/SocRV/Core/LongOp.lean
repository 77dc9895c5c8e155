import SocRV.Core.Flush

/-!
# A long operation is alone

Decode waits for the older instructions before it issues a division or a floating-point operation, and issues nothing
behind it until the unit has answered.  So from E1 to E4 there is only the packet of the operation itself while the
unit works and in the cycle after.  Besides, of two live packets the older one is further down: no cycle of decode
stands in two stages.
-/

namespace SocRV

namespace Dec

open DestPkt

variable {s : Dec} {i : DecIn} {Q : DestPkt → Prop}

/-! ## What holds of every live packet from E1 to E4 -/

/-- Every live packet from E1 to E4 has the property `Q`. -/
structure Only (Q : DestPkt → Prop) (s : Dec) : Prop where
  e1 : s.e1d.live = true → Q s.e1d
  e2 : s.e2d.live = true → Q s.e2d
  e3 : s.e3d.live = true → Q s.e3d
  e4 : s.e4d.live = true → Q s.e4d

theorem Only.mono {Q' : DestPkt → Prop} (h : Only Q s) (hQ : ∀ d : DestPkt, d.live = true → Q d → Q' d) : Only Q' s :=
  ⟨fun hl => hQ _ hl (h.e1 hl), fun hl => hQ _ hl (h.e2 hl), fun hl => hQ _ hl (h.e3 hl), fun hl => hQ _ hl (h.e4 hl)⟩

/-- A property that killing a slot keeps moves on from E1 to E3, if it holds of what decode issues. -/
theorem only_next (hg : Gated s) (h1 : s.e1d.live = true → Q s.e1d) (h2 : s.e2d.live = true → Q s.e2d)
    (h3 : s.e3d.live = true → Q s.e3d)
    (hkill : ∀ (d : DestPkt) (k0 k1 : Bool), (d.kill k0 k1).live = true → Q d → Q (d.kill k0 k1))
    (hd : s.i0DecodeD i = true → Q (s.dd i)) : Only Q (s.next i) := by
  refine ⟨fun hl => ?_, fun hl => ?_, fun hl => ?_, fun hl => ?_⟩
  · have heq := (next_e1d (i := i) hg).eq_of_live hl
    rw [heq] at hl ⊢
    by_cases hf : i.freeze = true
    · rw [if_pos hf] at hl ⊢
      exact h1 hl
    · rw [if_neg hf] at hl ⊢
      exact hd (dd_live.symm.trans hl)
  · have heq := (next_e2d (i := i) hg).eq_of_live hl
    rw [heq] at hl ⊢
    by_cases hf : i.freeze = true
    · rw [if_pos hf] at hl ⊢
      exact h2 hl
    · rw [if_neg hf] at hl ⊢
      exact hkill _ _ _ hl (h1 (live_of_kill hl))
  · have heq := (next_e3d (i := i) hg).eq_of_live hl
    rw [heq] at hl ⊢
    by_cases hf : i.freeze = true
    · rw [if_pos hf] at hl ⊢
      exact h3 hl
    · rw [if_neg hf] at hl ⊢
      exact hkill _ _ _ hl (h2 (live_of_kill hl))
  · have heq := (next_e4d (i := i) hg).eq_of_live hl
    rw [heq] at hl ⊢
    obtain ⟨hl3, hf⟩ := e3dIn_live hl
    rw [e3dIn, if_neg (by rw [hf]; decide)] at hl ⊢
    exact hkill _ _ _ hl (h3 hl3)

/-- What holds from E1 to E4 holds further. -/
theorem Only.next (h : Only Q s) (hg : Gated s)
    (hkill : ∀ (d : DestPkt) (k0 k1 : Bool), (d.kill k0 k1).live = true → Q d → Q (d.kill k0 k1))
    (hd : s.i0DecodeD i = true → Q (s.dd i)) : Only Q (s.next i) :=
  only_next hg h.e1 h.e2 h.e3 hkill hd

/-! ## What presync waits for -/

/-- An instruction with presync other than a division is decoded when nothing is in flight. -/
theorem idle_of_presync (h : s.i0DecodeD i = true) (hp : i0Presync i = true) (hdiv : (i0dp i).div = false) :
    s.priorInflight = false := by
  have hb := (of_i0Decode h).1
  simp only [i0BlockD, presyncStall, hp, hdiv, Bool.or_eq_false_iff, Bool.true_and] at hb
  simpa using hb.1.1.1.2

/-- A division is decoded when nothing is in flight from E1 to E3. -/
theorem idle_of_div (h : s.i0DecodeD i = true) (hlegal : (i0dp i).legal = true) (hdiv : (i0dp i).div = true) :
    s.priorInflightE1e3 = false := by
  have hb := (of_i0Decode h).1
  have hp : i0Presync i = true := by simp [i0Presync, (i0dp_wf.div hlegal hdiv).2.2.1]
  simp only [i0BlockD, presyncStall, hp, hdiv, Bool.or_eq_false_iff, Bool.true_and] at hb
  simpa using hb.1.1.1.2

/-- Without `prior_inflight_e1e3` the stages E1 to E3 are empty. -/
theorem not_live_of_priorInflightE1e3 (h : s.priorInflightE1e3 = false) :
    s.e1d.live = false ∧ s.e2d.live = false ∧ s.e3d.live = false := by
  simp only [priorInflightE1e3, Bool.or_eq_false_iff] at h
  obtain ⟨⟨⟨⟨⟨h1, h2⟩, h3⟩, h1'⟩, h2'⟩, h3'⟩ := h
  simp [live, h1, h2, h3, h1', h2', h3']

/-- Without `prior_inflight` all stages are empty. -/
theorem not_live_of_priorInflight (h : s.priorInflight = false) :
    s.e1d.live = false ∧ s.e2d.live = false ∧ s.e3d.live = false ∧ s.e4d.live = false ∧ s.wbd.live = false := by
  simp only [priorInflight, priorInflightE1e4, Bool.or_eq_false_iff] at h
  obtain ⟨⟨⟨⟨h123, h4⟩, h4'⟩, hw⟩, hw'⟩ := h
  obtain ⟨h1, h2, h3⟩ := not_live_of_priorInflightE1e3 h123
  exact ⟨h1, h2, h3, by simp [live, h4, h4'], by simp [live, hw, hw']⟩

/-- Whatever holds of every live packet when there is none. -/
theorem only_of_not_live (h1 : s.e1d.live = false) (h2 : s.e2d.live = false) (h3 : s.e3d.live = false)
    (h4 : s.e4d.live = false) : Only Q s :=
  ⟨by simp [h1], by simp [h2], by simp [h3], by simp [h4]⟩

/-- Next to an instruction with presync or postsync nothing is decoded. -/
theorem alone_of_sync (h : i0Presync i = true ∨ i0Postsync i = true) : s.i1DecodeD i = false := by
  by_contra hd
  rw [Bool.not_eq_false] at hd
  have hb := (i1Decode_dp hd).2
  rcases h with h | h <;> simp [i1BlockD, h] at hb

/-! ## The order of the live packets -/

/-- A live packet was decoded before everything behind it; a long operation that completes has left its place. -/
structure Strict (s : Dec) : Prop where
  e1 : s.e1d.live = true → s.e1d.seq < s.cycle
  e2 : s.e2d.live = true → s.e2d.seq < s.e1d.seq
  e3 : s.e3d.live = true → s.e3d.seq < s.e2d.seq
  e4 : s.e4d.live = true → s.e4d.seq < s.e3d.seq
  wb : s.wbd.live = true → s.divWenWb = false → s.fpuWenWb = false →
    s.wbd.seq < s.e3d.seq ∧ (s.e4d.live = true → s.wbd.seq < s.e4d.seq)

theorem strict_reset : Strict {} := ⟨nofun, nofun, nofun, nofun, nofun⟩

/-- A cycle keeps every live packet behind what was decoded after it. -/
theorem Strict.next (h : Strict s) (ho : Ordered s) (hg : Gated s) (i : DecIn) : Strict (s.next i) := by
  have hmono : s.e3d.seq ≤ (s.next i).e3d.seq := (rvdffs_seq_between (s.e2dIn i) ho.e3).1
  refine ⟨fun hl => ?_, fun hl => ?_, fun hl => ?_, fun hl => ?_, fun hl hdiv hfpu => ?_⟩
  · exact Nat.lt_succ_of_le (rvdffs_seq_between (s.dd i) ho.e1).2
  · have heq := (next_e2d (i := i) hg).eq_of_live hl
    rw [heq] at hl ⊢
    by_cases hf : i.freeze = true
    · rw [if_pos hf] at hl ⊢
      have hhold : (s.next i).e1d = s.e1d := by simp [Dec.next, i0E1CtlEn, hf]
      rw [hhold]
      exact h.e2 hl
    · rw [if_neg hf] at hl ⊢
      rw [Bool.not_eq_true] at hf
      have hl1 := (e1dIn_live hl).1
      have hmove : (s.next i).e1d = s.dd i := by simp [Dec.next, i0E1CtlEn, hf, hg.e1 hl1]
      rw [hmove]
      exact h.e1 hl1
  · have heq := (next_e3d (i := i) hg).eq_of_live hl
    rw [heq] at hl ⊢
    by_cases hf : i.freeze = true
    · rw [if_pos hf] at hl ⊢
      have hhold : (s.next i).e2d = s.e2d := by simp [Dec.next, i0E2CtlEn, hf]
      rw [hhold]
      exact h.e3 hl
    · rw [if_neg hf] at hl ⊢
      rw [Bool.not_eq_true] at hf
      have hl2 := (e2dIn_live hl).1
      have hmove : (s.next i).e2d = s.e1dIn := by simp [Dec.next, i0E2CtlEn, hf, hg.e2 hl2]
      rw [hmove]
      exact h.e2 hl2
  · have heq := (next_e4d (i := i) hg).eq_of_live hl
    rw [heq] at hl ⊢
    obtain ⟨hl3, hf⟩ := e3dIn_live hl
    have hmove : (s.next i).e3d = s.e2dIn i := by simp [Dec.next, i0E3CtlEn, hf, hg.e3 hl3]
    rw [hmove, e3dIn_seq hf]
    exact h.e3 hl3
  · have heq := (next_wbd (i := i) hg).eq_of_live hl
    rw [heq] at hl ⊢
    have hd : i.exuDivFinish = false := hdiv
    have hr : i.fpuRespValid = false := hfpu
    have hseq : (s.e4dIn i).seq = s.e4d.seq := by simp [e4dIn, hd, hr]
    rcases e4dIn_live hl with ⟨hl4, -⟩ | hd' | hr'
    · rw [hseq]
      refine ⟨Nat.lt_of_lt_of_le (h.e4 hl4) hmono, fun hl4' => ?_⟩
      have heq4 := (next_e4d (i := i) hg).eq_of_live hl4'
      rw [heq4] at hl4' ⊢
      rw [e3dIn_seq (e3dIn_live hl4').2]
      exact h.e4 hl4
    · rw [hd] at hd'
      cases hd'
    · rw [hr] at hr'
      cases hr'

/-- The packet of the floating-point operation decoded in cycle `q`, alone. -/
def IsFpu (q : Nat) (d : DestPkt) : Prop := d.seq = q ∧ d.i0fpu = true ∧ d.i1valid = false

/-- The packet of the division decoded in cycle `q`, alone. -/
def IsDiv (q : Nat) (d : DestPkt) : Prop := d.seq = q ∧ d.i0div = true ∧ d.i1valid = false

/-- A killed packet that is still live is that of the same floating-point operation. -/
theorem IsFpu.kill {q : Nat} (d : DestPkt) (k0 k1 : Bool) (_ : (d.kill k0 k1).live = true) (h : IsFpu q d) :
    IsFpu q (d.kill k0 k1) :=
  ⟨h.1, h.2.1, by rw [kill_i1valid, h.2.2, Bool.false_and]⟩

theorem IsDiv.kill {q : Nat} (d : DestPkt) (k0 k1 : Bool) (_ : (d.kill k0 k1).live = true) (h : IsDiv q d) :
    IsDiv q (d.kill k0 k1) :=
  ⟨h.1, h.2.1, by rw [kill_i1valid, h.2.2, Bool.false_and]⟩

/-- A decoded floating-point operation is issued alone. -/
theorem isFpu_dd (h : s.i0FpuDecodeD i = true) : IsFpu s.cycle (s.dd i) := by
  simp only [i0FpuDecodeD, Bool.and_eq_true] at h
  have hpre : i0Presync i = true := by simp [i0Presync, (i0dp_wf.fpu h.2).2.2.1]
  exact ⟨rfl, by simp [dd, h.1, h.2], alone_of_sync (Or.inl hpre)⟩

theorem isDiv_dd (h : s.i0DivDecodeD i = true) : IsDiv s.cycle (s.dd i) := by
  simp only [i0DivDecodeD, Bool.and_eq_true] at h
  have hpre : i0Presync i = true := by simp [i0Presync, (i0dp_wf.div (i0Legal_dp h.1) h.2).2.2.1]
  exact ⟨rfl, by simp [dd, h.1, h.2], alone_of_sync (Or.inl hpre)⟩

/-- A floating-point operation is decoded when nothing is in flight, no division runs and the unit is idle. -/
theorem idle_of_fpuDecode (h : s.i0FpuDecodeD i = true) :
    s.priorInflight = false ∧ i.exuDivStall = false ∧ i.fpuBusy = false ∧ s.i0DivDecodeD i = false := by
  simp only [i0FpuDecodeD, Bool.and_eq_true] at h
  have hdec := legalDecode_decode h.1
  obtain ⟨-, hdiv, hpre, -⟩ := i0dp_wf.fpu h.2
  refine ⟨idle_of_presync hdec (by simp [i0Presync, hpre]) hdiv, (idle_of_decode hdec).1, (idle_of_decode hdec).2, ?_⟩
  simp [i0DivDecodeD, hdiv]

/-- A long operation that moves on to write-back before it has completed is dead there. -/
theorem e4dIn_of_isFpu {q : Nat} (h : s.e4d.live = true → IsFpu q s.e4d) (hl : (s.e4dIn i).live = true) :
    i.exuDivFinish = true ∨ i.fpuRespValid = true := by
  by_contra hno
  rw [not_or, Bool.not_eq_true, Bool.not_eq_true] at hno
  rcases e4dIn_live hl with ⟨hl4, -⟩ | hd | hr
  · obtain ⟨-, hfpu, hi1⟩ := h hl4
    simp [live, e4dIn, hno.1, hno.2, hfpu, hi1] at hl
  · exact absurd hd (by simp [hno.1])
  · exact absurd hr (by simp [hno.2])

end Dec

namespace Cpu

open Dec

variable {s : Cpu} {i : CpuIn}

/-- While a long operation is at work, and in the cycle after, it is alone; its completion is what is in write-back. -/
structure Alone (s : Cpu) : Prop where
  fpu : s.fpu.busy = true ∨ s.dec.fpuStallFf = true → s.dec.Only (IsFpu s.dec.fpuSeq)
  fpuWb : s.fpu.busy = true ∨ s.dec.fpuStallFf = true → s.dec.wbd.live = true → s.dec.fpuWenWb = true
  fpuWen : s.dec.fpuWenWb = true →
    s.dec.fpuStallFf = true ∧ s.dec.wbd.i0valid = true ∧ s.dec.wbd.seq = s.dec.fpuSeq ∧ s.dec.divWenWb = false
  div : s.div.runState = true ∨ s.dec.divStallFf = true → s.dec.Only (IsDiv s.dec.divSeq)
  divWen : s.dec.divWenWb = true →
    s.dec.divStallFf = true ∧ s.dec.wbd.i0valid = true ∧ s.dec.wbd.seq = s.dec.divSeq
  apart : s.fpu.busy = true → s.div.runState = false

theorem alone_reset (m : DccmMem) : Alone { mem := m } :=
  ⟨by simp [Fpu.busy], by simp [Fpu.busy], nofun, by simp, nofun, by simp⟩

/-- An answer is for an operation at work. -/
theorem busy_of_respValid (ha : s.fpu.Answers i.fpu) (hr : s.fpuRespValid i = true) : s.fpu.busy = true := by
  simp only [fpuRespValid, Fpu.respValid, Bool.and_eq_true] at hr
  rw [Fpu.busy, ha hr.1, Bool.or_true]

/-- The unit is busy because it was or because it took a request. -/
theorem of_next_busy (h : (s.next i).fpu.busy = true) :
    s.fpu.busy = true ∨ s.dec.i0FpuDecodeD (s.decIn i) = true := by
  by_contra hno
  rw [not_or, Bool.not_eq_true, Bool.not_eq_true] at hno
  have hreq : (s.fpuIn i).reqValid = false := hno.2
  have hidle := hno.1
  simp only [next_fpu, Fpu.next, hreq, Fpu.busy, Bool.or_eq_false_iff] at h hidle
  rw [hidle.1, hidle.2] at h
  split_ifs at h <;> simp_all

section Step

variable (h : Alone s) (hs : Sound s) (ha : s.fpu.Answers i.fpu)

include h hs ha

/-- Nothing is decoded while the unit is busy, so its operation stays alone; a new one starts alone. -/
theorem Alone.fpu_next (hb : (s.next i).fpu.busy = true ∨ (s.next i).dec.fpuStallFf = true) :
    (s.next i).dec.Only (IsFpu (s.next i).dec.fpuSeq) ∧
      ((s.next i).dec.wbd.live = true → (s.next i).dec.fpuWenWb = true) := by
  have hnodiv : s.div.runState = false → s.divFinish i = false := fun hr => by
    by_contra hd
    rw [Bool.not_eq_false] at hd
    rw [(hs.div.of_finish hd).1] at hr
    cases hr
  cases hbusy : s.fpu.busy with
  | true =>
    have hdec : s.dec.i0DecodeD (s.decIn i) = false := by
      by_contra hd
      rw [Bool.not_eq_false] at hd
      exact absurd (idle_of_decode hd).2 (by rw [show (s.decIn i).fpuBusy = true from hbusy]; decide)
    have hseq : (s.next i).dec.fpuSeq = s.dec.fpuSeq := by
      simp [Dec.next, i0FpuDecodeD, i0LegalDecodeD, hdec]
    rw [hseq]
    have honly := h.fpu (Or.inl hbusy)
    refine ⟨honly.next hs.gated IsFpu.kill fun hd => ?_, fun hl => ?_⟩
    · rw [hdec] at hd
      cases hd
    · rw [next_dec, (next_wbd hs.gated).live_eq] at hl
      rcases e4dIn_of_isFpu honly.e4 hl with hd | hr
      · exact absurd hd (by rw [show (s.decIn i).exuDivFinish = s.divFinish i from rfl, hnodiv (h.apart hbusy)]; decide)
      · exact hr
  | false =>
    have hdec : s.dec.i0FpuDecodeD (s.decIn i) = true := by
      rcases hb with hb | hb
      · exact (of_next_busy hb).resolve_left (by rw [hbusy]; decide)
      · exact absurd hb (by rw [show (s.next i).dec.fpuStallFf = s.fpu.busy from rfl, hbusy]; decide)
    obtain ⟨hidle, hrun, -, -⟩ := idle_of_fpuDecode hdec
    have hseq : (s.next i).dec.fpuSeq = s.dec.cycle := by simp [Dec.next, hdec]
    rw [hseq]
    obtain ⟨h1, h2, h3, h4, -⟩ := not_live_of_priorInflight hidle
    have honly : s.dec.Only (IsFpu s.dec.cycle) := only_of_not_live h1 h2 h3 h4
    refine ⟨honly.next hs.gated IsFpu.kill fun _ => isFpu_dd hdec, fun hl => ?_⟩
    rw [next_dec, (next_wbd hs.gated).live_eq] at hl
    rcases e4dIn_of_isFpu honly.e4 hl with hd | hr
    · exact absurd hd (by rw [show (s.decIn i).exuDivFinish = s.divFinish i from rfl, hnodiv hrun]; decide)
    · exact absurd (busy_of_respValid ha hr) (by rw [hbusy]; decide)

omit ha in
/-- While a division is at work, its packet is the only one. -/
theorem Alone.div_next (hb : (s.next i).div.runState = true ∨ (s.next i).dec.divStallFf = true) :
    (s.next i).dec.Only (IsDiv (s.next i).dec.divSeq) := by
  cases hrun : s.div.runState with
  | true =>
    have hdec : s.dec.i0DecodeD (s.decIn i) = false := by
      by_contra hd
      rw [Bool.not_eq_false] at hd
      exact absurd (idle_of_decode hd).1 (by rw [show (s.decIn i).exuDivStall = true from hrun]; decide)
    have hseq : (s.next i).dec.divSeq = s.dec.divSeq := by
      simp [Dec.next, i0DivDecodeD, i0LegalDecodeD, hdec]
    rw [hseq]
    refine (h.div (Or.inl hrun)).next hs.gated IsDiv.kill fun hd => ?_
    rw [hdec] at hd
    cases hd
  | false =>
    have hdec : s.dec.i0DivDecodeD (s.decIn i) = true := by
      rcases hb with hb | hb
      · by_contra hd
        rw [Bool.not_eq_true] at hd
        have hvalid : (s.divIn i).valid = false := divDecodeD_eq.trans hd
        simp [DivCtl.next, DivCtl.runIn, hvalid, hrun] at hb
      · exact absurd hb (by rw [show (s.next i).dec.divStallFf = s.div.runState from rfl, hrun]; decide)
    have hseq : (s.next i).dec.divSeq = s.dec.cycle := by simp [Dec.next, hdec]
    rw [hseq]
    have hd := hdec
    simp only [i0DivDecodeD, Bool.and_eq_true] at hd
    obtain ⟨h1, h2, h3⟩ :=
      not_live_of_priorInflightE1e3 (idle_of_div (legalDecode_decode hd.1) (i0Legal_dp hd.1) hd.2)
    exact only_next hs.gated (by simp [h1]) (by simp [h2]) (by simp [h3]) IsDiv.kill fun _ => isDiv_dd hdec

/-- A completion is the packet that reaches write-back. -/
theorem Alone.fpuWen_next (hw : (s.next i).dec.fpuWenWb = true) :
    (s.next i).dec.fpuStallFf = true ∧ (s.next i).dec.wbd.i0valid = true ∧
      (s.next i).dec.wbd.seq = (s.next i).dec.fpuSeq ∧ (s.next i).dec.divWenWb = false := by
  have hr : s.fpuRespValid i = true := hw
  have hbusy := busy_of_respValid ha hr
  have hd : s.divFinish i = false := by
    by_contra hd
    rw [Bool.not_eq_false] at hd
    exact absurd (hs.div.of_finish hd).1 (by rw [h.apart hbusy]; decide)
  have hdec : s.dec.i0DecodeD (s.decIn i) = false := by
    by_contra hdec
    rw [Bool.not_eq_false] at hdec
    exact absurd (idle_of_decode hdec).2 (by rw [show (s.decIn i).fpuBusy = true from hbusy]; decide)
  have hr' : (s.decIn i).fpuRespValid = true := hr
  have hd' : (s.decIn i).exuDivFinish = false := hd
  exact ⟨hbusy, by simp [Dec.next, e4dIn, hr'],
    by simp [Dec.next, e4dIn, hr', hd', i0FpuDecodeD, i0LegalDecodeD, hdec], hd⟩

omit h ha in
/-- In the cycle of its write-back a division still stalls, and is what write-back holds. -/
theorem Alone.divWen_next (hw : (s.next i).dec.divWenWb = true) :
    (s.next i).dec.divStallFf = true ∧ (s.next i).dec.wbd.i0valid = true ∧
      (s.next i).dec.wbd.seq = (s.next i).dec.divSeq := by
  have hd : s.divFinish i = true := hw
  have hrun := (hs.div.of_finish hd).1
  have hdec : s.dec.i0DecodeD (s.decIn i) = false := by
    by_contra hdec
    rw [Bool.not_eq_false] at hdec
    exact absurd (idle_of_decode hdec).1 (by rw [show (s.decIn i).exuDivStall = true from hrun]; decide)
  have hd' : (s.decIn i).exuDivFinish = true := hd
  exact ⟨hrun, by simp [Dec.next, e4dIn, hd'],
    by simp [Dec.next, e4dIn, hd', i0DivDecodeD, i0LegalDecodeD, hdec]⟩

omit hs ha in
/-- While the FPU is busy the divider is not. -/
theorem Alone.apart_next (hb : (s.next i).fpu.busy = true) : (s.next i).div.runState = false := by
  have hidle : s.div.runState = false ∧ (s.divIn i).valid = false := by
    rcases of_next_busy hb with hbusy | hdec
    · refine ⟨h.apart hbusy, ?_⟩
      rw [show (s.divIn i).valid = s.dec.divDecodeD (s.decIn i) from rfl, divDecodeD_eq]
      by_contra hd
      rw [Bool.not_eq_false] at hd
      simp only [i0DivDecodeD, Bool.and_eq_true] at hd
      have hfpu : s.fpu.busy = false := (idle_of_decode (legalDecode_decode hd.1)).2
      rw [hfpu] at hbusy
      cases hbusy
    · obtain ⟨-, hrun, -, hd⟩ := idle_of_fpuDecode hdec
      exact ⟨hrun, divDecodeD_eq.trans hd⟩
  simp [DivCtl.next, DivCtl.runIn, hidle.1, hidle.2]

/-- A cycle keeps the long operation alone. -/
theorem Alone.next : Alone (s.next i) :=
  ⟨fun hb => (h.fpu_next hs ha hb).1, fun hb => (h.fpu_next hs ha hb).2, h.fpuWen_next hs ha, h.div_next hs,
    Alone.divWen_next hs, h.apart_next⟩

end Step

/-- In every run in which `fpnew` answers only what it has accepted, a long operation is alone. -/
theorem alone_run {m : DccmMem} {w : Nat → CpuIn} (ha : (machine m).Respects (fun s i => s.fpu.Answers i.fpu) w)
    (n : Nat) : Alone ((machine m).run w n) := by
  induction n with
  | zero => exact alone_reset m
  | succ n ih => exact ih.next (sound_run m w n) (ha n)

end Cpu

end SocRV
