import SocRV.Lsu.DccmRefine

/-!
# The DCCM and the store buffer are a flat memory

For every sequence of aligned accesses, flushes, freezes and drains, a committed load returns what the committed
stores before it leave in a flat byte memory, and the banks at any moment hold what an initial part of the
committed stores leaves there.
-/

namespace SocRV

namespace LsuMem

open Overlay

/-- In every run in which decode issues aligned accesses of one size under the store stall and a flush kills
everything younger: a load that commits in DC5 returns, extended as its packet says, the bytes of the flat memory
after all stores committed before it; the banks hold the memory after an initial part of the committed stores; and
draining an entry, which writes a whole word, changes the bytes of its own committed store only. -/
theorem dccm_refines_flat_memory {m : DccmMem} {w : Nat → LscIn} (hw : (machine m).Respects Env w) (n : Nat) :
    let s := (machine m).run w n
    let s' := (machine m).run w (n + 1)
    (s.lsc.commitDc5 (w n) = true → s.lsc.pktDc5.load = true → inDccm s.lsc.addrDc5 = true →
      s.resultDc5 = s.lsc.pktDc5.extend (flatWord (laidAll m.byte (history m w n)) (low s.lsc.addrDc5))) ∧
    (∃ done rest, history m w n = done ++ rest ∧ s.mem.byte = laidAll m.byte done) ∧
    (s.stbufCommitAny (w n) = true → (s.stbuf.entry s.stbuf.rdPtr).patch ∈ history m w n ∧
      s'.mem.byte = laid s.mem.byte (s.stbuf.entry s.stbuf.rdPtr).patch) ∧
    (s.stbufCommitAny (w n) = false → s'.mem.byte = s.mem.byte) := by
  intro s s'
  obtain ⟨c, p5, p4, h⟩ := refines_run hw n
  refine ⟨fun hc hl hd => ?_, ?_, fun hc => ?_, fun hc => DccmMem.byte_next_of_not_wren (Or.inr hc)⟩
  · unfold Lsc.commitDc5 at hc
    simp only [Bool.and_eq_true] at hc
    exact h.load5 (Bool.and_eq_true_iff.mpr ⟨hc.1.1, hd⟩) hl
  · obtain ⟨done, hhist, hmem⟩ := h.drained
    exact ⟨done, _, hhist, hmem⟩
  · exact ⟨h.drained_mem hc, h.drain_own_bytes hc⟩

/-- A DCCM of equal words. -/
def plainDccm : DccmMem := { bankMem := fun _ _ => 0x44332211 }

/-- A byte store to `0x20001` and a word load from `0x20000` right behind it. -/
def storeThenLoad : List LscIn :=
  [{ p := { byte := true, store := true, valid := true }, rs1D := 0x20001, rs2D := 0xab },
    { p := { word := true, load := true, valid := true }, rs1D := 0x20000 }, {}, {}, {}]

/-- The run of a store and a load keeps to the surroundings. -/
theorem storeThenLoad_env : (machine plainDccm).Respects Env (storeThenLoad.getD · {}) := by
  refine Machine.respects_getD_of_stable (I := fun s => s.lsc.Gated ∧ s.lsc.pktDc1.valid = false)
    (by decide +kernel) ⟨⟨by decide +kernel, by decide +kernel, by decide +kernel⟩, by decide +kernel⟩ ?_ ?_
  · rintro s ⟨hg, hv⟩
    refine ⟨hg.next _, ?_⟩
    have hnext := Lsc.next_validDc1 (i := s.lscIn {}) hg
    exact hnext
  · rintro s ⟨-, hv⟩
    refine ⟨nofun, fun h => ?_, ⟨nofun, nofun⟩⟩
    rw [hv] at h
    cases h

/-- Without the store in front of it the load reads the word the DCCM starts with. -/
example : ((machine plainDccm).run ((storeThenLoad.drop 1).getD · {}) 5).resultDc5 = 0x44332211 := by
  decide +kernel

theorem dccm_refines_flat_memory_storeThenLoad :
    ((machine plainDccm).run (storeThenLoad.getD · {}) 6).lsc.commitDc5 {} = true ∧
    ((machine plainDccm).run (storeThenLoad.getD · {}) 6).resultDc5 =
      ((machine plainDccm).run (storeThenLoad.getD · {}) 6).lsc.pktDc5.extend
        (flatWord (laidAll plainDccm.byte (history plainDccm (storeThenLoad.getD · {}) 6)) 0) ∧
    ((machine plainDccm).run (storeThenLoad.getD · {}) 6).resultDc5 = 0x4433ab11 := by
  have hcommit : ((machine plainDccm).run (storeThenLoad.getD · {}) 6).lsc.commitDc5 {} = true := by decide +kernel
  have haddr : low ((machine plainDccm).run (storeThenLoad.getD · {}) 6).lsc.addrDc5 = 0 := by decide +kernel
  have hload := (dccm_refines_flat_memory storeThenLoad_env 6).1 hcommit (by decide +kernel) (by decide +kernel)
  rw [haddr] at hload
  exact ⟨hcommit, hload, by decide +kernel⟩

end LsuMem

end SocRV
