import SocRV.Core.BranchArch
import SocRV.Core.LongOp

/-!
# The pair in E4 and the cycle of its decode

A live packet is the one decode issued in the cycle of its `seq`, up to a slot `i1` that a branch next to it has
killed, and so is the trap packet beside it.  So what E4 holds of a pair can be read off the instructions decode saw.
-/

namespace SocRV

namespace Dec

open DestPkt

variable {s : Dec} {i : DecIn} {D : Nat → DestPkt} {T : Nat → TrapPkt}

/-- Each live packet and its trap packet are what decode issued: `D` and `T` are the packets of each cycle. -/
structure Traced (D : Nat → DestPkt) (T : Nat → TrapPkt) (s : Dec) : Prop where
  e1 : s.e1d.live = true → s.e1d = D s.e1d.seq ∧ s.e1t = T s.e1d.seq
  e2 : s.e2d.live = true → s.e2d = D s.e2d.seq ∧ s.e2t = T s.e2d.seq
  e3 : s.e3d.live = true → s.e3d = D s.e3d.seq ∧ s.e3t = T s.e3d.seq
  e4 : s.e4d.live = true → (∃ k, s.e4d = (D s.e4d.seq).kill false k) ∧ s.e4t = T s.e4d.seq

theorem traced_reset : Traced D T {} := ⟨nofun, nofun, nofun, nofun⟩

/-- A cycle keeps the packets traced: each stage takes the pair before it, and only E4 kills a slot. -/
theorem Traced.next (h : Traced D T s) (hg : Gated s) (hD : D s.cycle = s.dd i) (hT : T s.cycle = s.dt i) :
    Traced D T (s.next i) := by
  refine ⟨fun hl => ?_, fun hl => ?_, fun hl => ?_, fun hl => ?_⟩
  · have htrap : (s.next i).e1t = rvdffs (s.i0E1CtlEn i) (s.dt i) s.e1t := rfl
    rcases step_e1d hg hl with ⟨hf, heq⟩ | ⟨hf, hd, heq⟩
    · have hen : s.i0E1CtlEn i = false := by simp [i0E1CtlEn, hf]
      rw [heq] at hl ⊢
      rw [htrap, hen]
      exact h.e1 hl
    · have hen : s.i0E1CtlEn i = true := by simp [i0E1CtlEn, hf, hd]
      have hseq : (s.dd i).seq = s.cycle := rfl
      rw [heq, htrap, hen, hseq, hD, hT]
      exact ⟨rfl, rfl⟩
  · have htrap : (s.next i).e2t = rvdffs (s.i0E2CtlEn i) s.e1t s.e2t := rfl
    rcases step_e2d hg hl with ⟨hf, heq⟩ | ⟨hf, -, hp, heq⟩
    · have hen : s.i0E2CtlEn i = false := by simp [i0E2CtlEn, hf]
      rw [heq] at hl ⊢
      rw [htrap, hen]
      exact h.e2 hl
    · have hen : s.i0E2CtlEn i = true := by simp [i0E2CtlEn, hf, hp]
      rw [heq] at hl ⊢
      rw [htrap, hen]
      exact h.e1 hl
  · have htrap : (s.next i).e3t = rvdffs (s.i0E3CtlEn i) s.e2t s.e3t := rfl
    rcases step_e3d hg hl with ⟨hf, heq⟩ | ⟨hf, -, -, hp, heq⟩
    · have hen : s.i0E3CtlEn i = false := by simp [i0E3CtlEn, hf]
      rw [heq] at hl ⊢
      rw [htrap, hen]
      exact h.e3 hl
    · have hen : s.i0E3CtlEn i = true := by simp [i0E3CtlEn, hf, hp]
      rw [heq] at hl ⊢
      rw [htrap, hen]
      exact h.e2 hl
  · have htrap : (s.next i).e4t = rvdffs (s.i0E4CtlEn i) (s.e3tIn i) s.e4t := rfl
    obtain ⟨hf, hfl, hp, heq⟩ := step_e4d hg hl
    have hen : s.i0E4CtlEn i = true := by simp [i0E4CtlEn, hp]
    have hin : s.e3tIn i = s.e3t := by simp [e3tIn, hf, hfl]
    rw [heq] at hl
    obtain ⟨hd, ht⟩ := h.e3 (live_of_kill hl)
    have hseq : (s.next i).e4d.seq = s.e3d.seq := by rw [heq]; rfl
    rw [hseq, htrap, hen, hin]
    exact ⟨⟨s.i0FlushFinalE3, by rw [heq, ← hd]⟩, ht⟩

end Dec

namespace Cpu

open Dec DestPkt

variable (m : DccmMem) (w : Nat → CpuIn) (n : Nat)

/-- The ports of decode in each cycle of a run. -/
def decPorts (n : Nat) : DecIn := ((machine m).run w n).decIn (w n)

/-- The packet decode issues in each cycle of a run. -/
def ddOf (n : Nat) : DestPkt := ((machine m).run w n).dec.dd (decPorts m w n)

/-- The trap packet beside it. -/
def dtOf (n : Nat) : TrapPkt := ((machine m).run w n).dec.dt (decPorts m w n)

/-- In every run each live packet is the one decode issued in the cycle of its `seq`. -/
theorem traced_run : ((machine m).run w n).dec.Traced (ddOf m w) (dtOf m w) := by
  induction n with
  | zero => exact traced_reset
  | succ n ih =>
    have hc := run_cycle m w n
    exact ih.next (sound_run m w n).gated (by rw [hc]; rfl) (by rw [hc]; rfl)

end Cpu

end SocRV
