import SocRV.Core.LsuCommit

/-!
# Where committed stores go

A store that commits in DC5 either has its entries in the store buffer marked for the DCCM or sets the write request of
the bus interface.  The DCCM path of the core is the one of the load/store unit, fed by the rest of the core, and what
it writes to the banks are the entries of committed stores, in order.
-/

namespace SocRV

/-! ## Entries -/

namespace LsuMem

variable (m : DccmMem) (w : Nat → LscIn) (n : Nat)

/-- The entries written to the DCCM in the first `n` cycles, oldest first. -/
def written : List (BitVec 16 × BitVec 4 × BitVec 32) :=
  (((machine m).events leaving w n).filter (·.2)).map Prod.fst

/-- The entries of the stores that committed in the first `n` cycles, oldest first. -/
def ofCommitted : List (BitVec 16 × BitVec 4 × BitVec 32) :=
  (((((machine m).events entering w n).map Prod.snd).zip (((machine m).events deciding w n).map Prod.snd)).filter
    (·.2)).map Prod.fst

variable {m w n}

/-- What is written to the DCCM are the entries of committed stores, in order and without a gap. -/
theorem written_prefix (hw : (machine m).Respects HonoursStoreStall w) : written m w n <+: ofCommitted m w n := by
  obtain ⟨q, ms, h⟩ := tracks_run hw n
  unfold written ofCommitted
  rw [h.contents, h.marks, List.zip_append (by rw [List.length_map, List.length_map]), List.filter_append,
    List.map_append]
  have hzip : (((machine m).events leaving w n).map Prod.fst).zip (((machine m).events leaving w n).map Prod.snd) =
      (machine m).events leaving w n :=
    (List.zip_of_prod rfl rfl).symm
  rw [hzip]
  exact List.prefix_append _ _

end LsuMem

namespace Cpu

open Dec DestPkt

variable (m : DccmMem) (w : Nat → CpuIn)

/-- The inputs of the DCCM path in a run of the core. -/
def dccmPath (n : Nat) : LscIn := ((machine m).run w n).lsu.lscIn (((machine m).run w n).lsuIn (w n))

variable {m w} {s : Cpu} {i : CpuIn} {n : Nat}

/-- The DCCM path of the core runs on these inputs. -/
theorem lsuMem_run : ((machine m).run w n).lsuMem = (LsuMem.machine m).run (dccmPath m w) n := by
  induction n with
  | zero => rfl
  | succ n ih =>
    rw [Machine.run_succ, Machine.run_succ, ← ih]
    rfl

/-- Decode honours the store stall. -/
theorem honoursStoreStall_run : (LsuMem.machine m).Respects LsuMem.HonoursStoreStall (dccmPath m w) := by
  intro n hv hst
  rw [← lsuMem_run]
  have hkind := lsuP_kind (s := (machine m).run w n) (i := w n) hv
  have hst' : (((machine m).run w n).lsuP (w n)).store = true := hst
  rw [hst'] at hkind
  rcases honoursStall (s := (machine m).run w n) (i := w n) hv with ⟨hl, -⟩ | ⟨-, hfree⟩
  · exact absurd (hkind.symm.trans hl) Bool.false_ne_true
  · exact (Bool.or_eq_false_iff.mp hfree).1

/-! ## Committed stores -/

/-- A store that commits in DC5 has not faulted, so it has taken its entries or is external. -/
theorem place_of_commit (ha : (machine m).Respects (fun s i => s.fpu.Answers i.fpu) w)
    (hc : ((machine m).run w n).lsuCommitDc5 (w n) = true) (hst : ((machine m).run w n).lsu.lsc.pktDc5.store = true) :
    (((machine m).run w n).stbuf.reqvldDc5 || ((machine m).run w n).lsu.lsc.addrExternalDc5) = true := by
  cases n with
  | zero => exact absurd hc (by simp [lsuCommitDc5, LsuBus.commitDc5, Lsc.commitDc5, machine])
  | succ n =>
    have hnext : (((machine m).run w n).next (w n)).lsuCommitDc5 (w (n + 1)) = true := hc
    rw [lsuCommitDc5_next] at hnext
    simp only [Bool.and_eq_true, Bool.not_eq_true', Bool.or_eq_false_iff] at hnext
    obtain ⟨⟨⟨hv, hfl⟩, -⟩, hkill0, hkill1⟩ := hnext
    refine (placed_run m w n).store4 hv hst ?_
    rw [← Bool.not_eq_true]
    intro hexc
    rcases (together_run m w n).fault hexc with hf | ⟨-, hslot⟩
    · -- a frozen pipeline leaves E4 empty
      have hdead := (together_run m w n).frozen hf
      have hlsu := (aligned_run m w n).dc4.valid
      obtain ⟨h0, h1⟩ := valid_of_not_live hdead
      rw [hv, lsu0, lsu1, h0, h1, Bool.false_and, Bool.false_and] at hlsu
      exact absurd hlsu (by decide)
    · cases hpipe : ((machine m).run w n).tlu.lsuErrorPktDc4.instPipe with
      | false =>
        have hkill := Tlu.i0Kill_of_access (i := ((machine m).run w n).tluIn (w n))
          (by rw [Tlu.lsuI0ExcDc4Raw, hexc, hpipe]; rfl) hfl
        exact Bool.false_ne_true (hkill0.symm.trans hkill)
      | true =>
        rw [hpipe] at hslot
        have hv1 := i1ValidE4_of_access hv hslot
        rw [hfl] at hv1
        have hkill := Tlu.i1Kill_of_access (i := ((machine m).run w n).tluIn (w n))
          (by rw [Tlu.lsuI1ExcDc4Raw, hexc, hpipe]; rfl) hfl ((oneCause_run ha).pair hv1)
        rw [hkill, hslot] at hkill1
        exact absurd hkill1 (by decide)

end Cpu

end SocRV
