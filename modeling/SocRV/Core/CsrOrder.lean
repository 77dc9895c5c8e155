import SocRV.Core.FpOrder

/-!
# CSR writes in the pipeline

A CSR instruction that reads what it writes, and every write to `mstatus`, holds the younger instructions back until it
is in write-back: `ps_stall` stays up as long as it is between E1 and E4 and one cycle longer.  So behind a decoded
instruction stand only CSR instructions that do nothing but write, and none of these writes `mstatus`.
-/

namespace SocRV

namespace FpCpu

open DestPkt Dec

variable {s : FpCpu} {i : FpCpuIn}

/-- A CSR write that holds the younger instructions back. -/
def Holds (c : CsrPkt) : Prop := c.wen = true ∧ (c.wonly = false ∨ c.waddr = csrMstatus)

/-- While such a write is between E1 and write-back, `ps_stall` is up. -/
structure Held (s : FpCpu) : Prop where
  pipe : InPipe (fun p => Holds p.csr → s.cpu.dec.psStall = true) s
  wb : s.cpu.dec.wbd.i0valid = true → Holds s.csrWb → s.cpu.dec.psStall = true

theorem held_reset (m : DccmMem) : Held { cpu := { mem := m } } := ⟨inPipe_reset m, nofun⟩

/-- A write to a CSR in E1 to E4 keeps `ps_stall` up: no long operation completes around it. -/
theorem keeps_of_csr (hs : FpSound s) :
    InPipe (fun p => p.csr.wen = true →
      s.cpu.dec.priorInflightE1e4 = true ∧ s.cpu.dec.divWenWb = false ∧ s.cpu.dec.fpuWenWb = false) s := by
  have hdiv : s.cpu.dec.divWenWb = true → s.cpu.dec.Only (IsDiv s.cpu.dec.divSeq) := fun hw =>
    hs.alone.div (Or.inr (hs.alone.divWen hw).1)
  have hfpu : s.cpu.dec.fpuWenWb = true → s.cpu.dec.Only (IsFpu s.cpu.dec.fpuSeq) := fun hw =>
    hs.alone.fpu (Or.inr (hs.alone.fpuWen hw).1)
  refine ⟨fun hv hw => ?_, fun hv hw => ?_, fun hv hw => ?_, fun hv hw => ?_⟩
  · obtain ⟨-, hf, hd, -⟩ := (hs.fits.e1 hv).csr hw
    have hv' : s.cpu.dec.e1d.i0valid = true := hv
    refine ⟨by simp [priorInflightE1e4, priorInflightE1e3, hv'], ?_, ?_⟩
    · by_contra hc
      exact absurd (hd.symm.trans ((hdiv (by simpa using hc)).e1 (live_of_i0valid hv)).2.1) (by decide)
    · by_contra hc
      exact absurd (hf.symm.trans ((hfpu (by simpa using hc)).e1 (live_of_i0valid hv)).2.1) (by decide)
  · obtain ⟨-, hf, hd, -⟩ := (hs.fits.e2 hv).csr hw
    have hv' : s.cpu.dec.e2d.i0valid = true := hv
    refine ⟨by simp [priorInflightE1e4, priorInflightE1e3, hv'], ?_, ?_⟩
    · by_contra hc
      exact absurd (hd.symm.trans ((hdiv (by simpa using hc)).e2 (live_of_i0valid hv)).2.1) (by decide)
    · by_contra hc
      exact absurd (hf.symm.trans ((hfpu (by simpa using hc)).e2 (live_of_i0valid hv)).2.1) (by decide)
  · obtain ⟨-, hf, hd, -⟩ := (hs.fits.e3 hv).csr hw
    have hv' : s.cpu.dec.e3d.i0valid = true := hv
    refine ⟨by simp [priorInflightE1e4, priorInflightE1e3, hv'], ?_, ?_⟩
    · by_contra hc
      exact absurd (hd.symm.trans ((hdiv (by simpa using hc)).e3 (live_of_i0valid hv)).2.1) (by decide)
    · by_contra hc
      exact absurd (hf.symm.trans ((hfpu (by simpa using hc)).e3 (live_of_i0valid hv)).2.1) (by decide)
  · obtain ⟨-, hf, hd, -⟩ := (hs.fits.e4 hv).csr hw
    have hv' : s.cpu.dec.e4d.i0valid = true := hv
    refine ⟨by simp [priorInflightE1e4, hv'], ?_, ?_⟩
    · by_contra hc
      exact absurd (hd.symm.trans ((hdiv (by simpa using hc)).e4 (live_of_i0valid hv)).2.1) (by decide)
    · by_contra hc
      exact absurd (hf.symm.trans ((hfpu (by simpa using hc)).e4 (live_of_i0valid hv)).2.1) (by decide)

/-- The stall of a CSR write stays up while something older is on its way. -/
theorem next_psStall (hps : s.cpu.dec.psStall = true)
    (hk : s.cpu.dec.priorInflightE1e4 = true ∧ s.cpu.dec.divWenWb = false ∧ s.cpu.dec.fpuWenWb = false) :
    (s.next i).cpu.dec.psStall = true := by
  have heq : (s.next i).cpu.dec.psStall =
      rvdffs (!(s.decIn i).freeze) (s.cpu.dec.psStallIn (s.decIn i)) s.cpu.dec.psStall := rfl
  rw [heq, psStallIn, hps, hk.1, hk.2.1, hk.2.2]
  cases (s.decIn i).freeze <;> simp

@[inherit_doc i0Dp_csr]
theorem i0dp_csr (h : (s.i0dp i).legal = true) (hw : (s.i0dp i).csrWenUnq = true) :
    (s.i0dp i).anyCsr = true ∧
      ((s.i0dp i).csrRead = true ∨ (s.i0dp i).csrWrite = false →
        (s.i0dp i).presync = true ∧ (s.i0dp i).postsync = true) := by
  unfold FpCpu.i0dp Dec.i0dp at *
  exact i0Dp_csr h hw

/-- Such a write is one with postsync. -/
theorem postsync_of_holds (hc : Holds (s.csrDd i)) (hd : s.i0DecodeD i = true) :
    i0Postsync (s.decIn i) = true := by
  obtain ⟨hwen, hkind⟩ := hc
  obtain ⟨hunq, hlegal⟩ := Bool.and_eq_true_iff.mp hwen
  have hdp : Dec.i0dp (s.decIn i) = s.i0dp i := rfl
  have hleg := i0Legal_dp hlegal
  rw [hdp] at hleg
  obtain ⟨hany, hsync⟩ := i0dp_csr hleg hunq
  have hpostD : (s.decIn i).postsyncD = ((csrPostsync (csrAddr i) && (s.i0dp i).anyCsr) || i.rfpcPostsync) := rfl
  rw [i0Postsync, hdp, hpostD]
  rcases hkind with hw | haddr
  · simp only [csrDd, hd, Bool.and_true, Bool.and_eq_false_iff, Bool.not_eq_false'] at hw
    rw [(hsync hw.symm).2, Bool.true_or, Bool.true_or]
  · have haddr' : csrAddr i = csrMstatus := haddr
    have hm : csrPostsync csrMstatus = true := by decide
    rw [haddr', hm, hany, Bool.true_and, Bool.true_or, Bool.or_true, Bool.true_or]

/-- Decode raises `ps_stall` behind such a write. -/
theorem next_psStall_of_issued (hd : s.i0DecodeD i = true) (hc : Holds (s.issued i).csr) :
    (s.next i).cpu.dec.psStall = true := by
  have hd' : s.cpu.dec.i0DecodeD (s.decIn i) = true := hd
  have hpost := postsync_of_holds hc hd
  have heq : (s.next i).cpu.dec.psStall =
      rvdffs (!(s.decIn i).freeze) (s.cpu.dec.psStallIn (s.decIn i)) s.cpu.dec.psStall := rfl
  rw [heq, (of_i0Decode hd').2.2.2, Bool.not_false, rvdffs_true, psStallIn, hd', hpost]
  rw [Bool.or_true, Bool.true_or, Bool.true_and, Bool.true_or, Bool.true_or]

/-- A cycle keeps everything behind a CSR write held. -/
theorem Held.next (h : Held s) (hs : FpSound s) : Held (s.next i) := by
  have hkeep := keeps_of_csr hs
  have hpipe : InPipe (fun p => Holds p.csr → (s.next i).cpu.dec.psStall = true) s :=
    ⟨fun hv hc => next_psStall (h.pipe.e1 hv hc) (hkeep.e1 hv hc.1),
      fun hv hc => next_psStall (h.pipe.e2 hv hc) (hkeep.e2 hv hc.1),
      fun hv hc => next_psStall (h.pipe.e3 hv hc) (hkeep.e3 hv hc.1),
      fun hv hc => next_psStall (h.pipe.e4 hv hc) (hkeep.e4 hv hc.1)⟩
  refine ⟨hpipe.next hs.sound.gated fun hd => next_psStall_of_issued hd, fun hv hc => ?_⟩
  rcases next_wb hs.sound.gated hv with ⟨-, -, hcsr⟩ | ⟨-, -, -, hcsr⟩ | ⟨-, -, -, hv4, -, -, hcsr, -⟩
  · rw [hcsr] at hc
    exact absurd hc.1 (by decide)
  · rw [hcsr] at hc
    exact absurd hc.1 (by decide)
  · rw [hcsr] at hc
    exact hpipe.e4 hv4 hc

/-- In every run everything behind a CSR write is held. -/
theorem held_run {m : DccmMem} {w : Nat → FpCpuIn}
    (hw : (machine m).Respects (fun s i => Env s i ∧ s.LoadsEnabled i) w) (n : Nat) : Held ((machine m).run w n) := by
  induction n with
  | zero => exact held_reset m
  | succ n ih => exact ih.next (fpSound_run hw n)

/-- Behind a decoded instruction stands no write that holds. -/
theorem Held.not_holds (h : Held s) (hd : s.i0DecodeD i = true) :
    InPipe (fun p => ¬Holds p.csr) s ∧ (s.cpu.dec.wbd.i0valid = true → ¬Holds s.csrWb) := by
  obtain ⟨hb, -⟩ := of_i0Decode hd
  simp only [i0BlockD, postsyncStall, Bool.or_eq_false_iff] at hb
  have hps : s.cpu.dec.psStall = false := hb.1.1.1.1.2.1.1
  have hno : ∀ {c : CsrPkt}, (Holds c → s.cpu.dec.psStall = true) → ¬Holds c := fun hc hold => by
    rw [hc hold] at hps
    cases hps
  exact ⟨⟨fun hv => hno (h.pipe.e1 hv), fun hv => hno (h.pipe.e2 hv), fun hv => hno (h.pipe.e3 hv),
    fun hv => hno (h.pipe.e4 hv)⟩, fun hv => hno (h.wb hv)⟩

end FpCpu

end SocRV
