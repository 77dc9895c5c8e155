import SocRV.Core.StorePath
import SocRV.Soc.MmioPath
import SocRV.Theorems.Flush

/-!
# Stores take effect exactly when they commit

The load/store unit commits an access in DC5 exactly when the trap unit commits its slot in E4, and a store takes effect
exactly when it commits there.  A store that a flush should have removed does not commit, unless it sits in DC3 while a
load behind it waits for the bus: then the flush is lost on it.
-/

namespace SocRV

namespace Cpu

variable (m : DccmMem) (w : Nat → CpuIn)

/-- In cycle `n` an access is in DC4, in slot `i0` or in slot `i1`. -/
def InDc4 (n : Nat) (slot0 : Bool) : Prop :=
  ((machine m).run w n).lsu.lsc.pktDc4.valid = true ∧ ((machine m).run w n).lsu.lsc.i0ValidDc4 = slot0

/-- In cycle `n` a store commits in DC5. -/
def StoreCommits (n : Nat) : Prop :=
  ((machine m).run w n).lsuCommitDc5 (w n) = true ∧ ((machine m).run w n).lsu.lsc.pktDc5.store = true

/-- `lsu_commit_dc5` is high for an access exactly when the trap unit has committed its slot in the cycle before. -/
def CommitAgrees : Prop :=
  ∀ n,
    (InDc4 m w n true → ((machine m).run w (n + 1)).lsuCommitDc5 (w (n + 1)) =
      ((machine m).run w n).tlu.tluI0CommitCmt (((machine m).run w n).tluIn (w n))) ∧
    (InDc4 m w n false → ((machine m).run w (n + 1)).lsuCommitDc5 (w (n + 1)) =
      ((machine m).run w n).tlu.tluI1CommitCmt (((machine m).run w n).tluIn (w n)))

/-- What is wrong with an access, or with the instruction before it in its pair, keeps it from committing. -/
def FaultsStay : Prop :=
  ∀ n,
    (InDc4 m w n true → ((machine m).run w n).tlu.i0Faults (((machine m).run w n).tluIn (w n)) = true →
      ((machine m).run w n).tlu.tluI0CommitCmt (((machine m).run w n).tluIn (w n)) = false) ∧
    ((((machine m).run w n).tlu.i0Faults (((machine m).run w n).tluIn (w n)) ||
      ((machine m).run w n).tlu.i0MpE4 (((machine m).run w n).tluIn (w n)) ||
      ((machine m).run w n).tlu.i1Faults (((machine m).run w n).tluIn (w n))) = true →
      ((machine m).run w n).tlu.tluI1CommitCmt (((machine m).run w n).tluIn (w n)) = false)

/-- A store that commits after a flush was decoded after it. -/
def FlushedStay : Prop :=
  ∀ n k, ((machine m).run w n).flushLowerWb = true → n < k → StoreCommits m w k →
    n < ((machine m).run w k).lsu.lsc.pktDc5.tag

/-- A store that commits after a misprediction of the primary ALU, with the branch in E3, is no younger than the branch:
it is of its pair or was decoded before it, or else after the flush; and it is not of the pair if the branch is in slot
`i0`. -/
def MispredictedStay : Prop :=
  ∀ n k, ((machine m).run w n).dec.flushFinalE3 = true → n < k → StoreCommits m w k →
    (((machine m).run w k).lsu.lsc.pktDc5.tag ≤ ((machine m).run w n).dec.e3d.seq ∨
      n < ((machine m).run w k).lsu.lsc.pktDc5.tag) ∧
    (((machine m).run w n).dec.i0FlushFinalE3 = true →
      ((machine m).run w k).lsu.lsc.pktDc5.tag ≤ ((machine m).run w n).dec.e4d.seq ∨
        n < ((machine m).run w k).lsu.lsc.pktDc5.tag)

/-- The DCCM changes only by the entries of the store buffer that leave it to be written, these are the entries of
committed stores, in order, and the decisions of DC5 are for the entries in the order in which they entered. -/
def DccmExact : Prop :=
  ∀ n,
    let s := ((machine m).run w n).lsuMem
    let s' := ((machine m).run w (n + 1)).lsuMem
    let i := dccmPath m w n
    (s.stbufCommitAny i = false → s'.mem.bankMem = s.mem.bankMem) ∧
    (s.stbufCommitAny i = true → s.leaving i = [((s.stbuf.entry s.stbuf.rdPtr).content, true)] ∧
      ∀ bank row, s'.mem.bankMem bank row =
        if dccmBank s.stbuf.addrAny = bank ∧ row = dccmRow s.stbuf.addrAny then s.stbuf.dataAny
        else s.mem.bankMem bank row) ∧
    LsuMem.written m (dccmPath m w) n <+: LsuMem.ofCommitted m (dccmPath m w) n ∧
    ((LsuMem.machine m).events LsuMem.deciding (dccmPath m w) n).map Prod.fst <+:
      ((LsuMem.machine m).events LsuMem.entering (dccmPath m w) n).map Prod.fst

/-- A write is presented on the bus only for an external store that has committed, with its own request, until it is
answered. -/
def BusExact : Prop :=
  ∀ n,
    let s := ((machine m).run w n).lsu
    let s' := ((machine m).run w (n + 1)).lsu
    (s.bus.mmioReq.write = true → s.bus.storePending = true) ∧
    (s.bus.storePending = false → s'.bus.storePending = true →
      StoreCommits m w n ∧ s.lsc.addrExternalDc5 = true ∧ s'.bus.mmioReq = s.storeReqDc5) ∧
    (s.bus.storePending = true → (w n).lsu.mmioReady = false →
      s'.bus.storePending = true ∧ s'.bus.mmioReq = s.bus.mmioReq)

/-- Every store that commits has its entries of the store buffer marked for the DCCM, or becomes the request on the
bus. -/
def CommittedTakeEffect : Prop :=
  ∀ n, StoreCommits m w n →
    (((machine m).run w n).lsu.lsc.pktDc5.tag, true) ∈ ((machine m).run w n).lsuMem.deciding (dccmPath m w n) ∨
    (((machine m).run w n).lsu.bus.storePending = false ∧ ((machine m).run w (n + 1)).lsu.bus.storePending = true ∧
      ((machine m).run w (n + 1)).lsu.bus.mmioReq = ((machine m).run w n).lsu.storeReqDc5)

/-- Stores take effect exactly when the trap unit commits them. -/
structure StoresExact : Prop where
  agree : CommitAgrees m w
  faults : FaultsStay m w
  flushed : FlushedStay m w
  mispredicted : MispredictedStay m w
  dccm : DccmExact m w
  bus : BusExact m w
  effect : CommittedTakeEffect m w

/-- The core is not in debug mode, and `fpnew` answers only what it has accepted. -/
def RunsFreely (s : Cpu) (i : CpuIn) : Prop :=
  s.fpu.Answers i.fpu ∧ i.tlu.dbgHalted = false ∧ i.tlu.requestDebugModeWb = false

/-- No flush comes while a load waits for the bus with a store before it in DC3. -/
def NoStoreHeld (s : Cpu) (i : CpuIn) : Prop :=
  s.flushLowerWb = true → s.lsu.bus.loadPending = true → i.lsu.mmioReady = false → s.lsu.lsc.pktDc3.valid = true →
    s.lsu.lsc.pktDc3.store = false

instance (s : Cpu) (i : CpuIn) : Decidable (s.RunsFreely i) :=
  inferInstanceAs (Decidable (s.fpu.Answers i.fpu ∧ i.tlu.dbgHalted = false ∧ i.tlu.requestDebugModeWb = false))

instance (s : Cpu) (i : CpuIn) : Decidable (s.NoStoreHeld i) :=
  inferInstanceAs (Decidable (s.flushLowerWb = true → s.lsu.bus.loadPending = true → i.lsu.mmioReady = false →
    s.lsu.lsc.pktDc3.valid = true → s.lsu.lsc.pktDc3.store = false))

variable {m w}

/-- Without debug requests `lsu_commit_dc5` repeats what the trap unit decided on the access in E4. -/
theorem commitAgrees_run (hw : (machine m).Respects RunsFreely w) : CommitAgrees m w := by
  intro n
  have ha : (machine m).Respects (fun s i => s.fpu.Answers i.fpu) w := fun k => (hw k).1
  constructor
  · rintro ⟨hv, hslot⟩
    exact commit_slot0 ha hv (hw n).2.1 (hw n).2.2 hslot
  · rintro ⟨hv, hslot⟩
    exact commit_slot1 hv (hw n).2.1 (hw n).2.2 hslot

/-- Without debug requests an access that faults, or whose pair faults before it, does not commit. -/
theorem faultsStay_run (hw : (machine m).Respects RunsFreely w) : FaultsStay m w := by
  intro n
  have ha : (machine m).Respects (fun s i => s.fpu.Answers i.fpu) w := fun k => (hw k).1
  constructor
  · rintro ⟨hv, hslot⟩ hf
    exact not_commit_slot0 ha hv (hw n).2.1 (hw n).2.2 hslot hf
  · intro hf
    exact not_commit_slot1 ha (hw n).2.1 (hw n).2.2 hf

/-- A store that commits is valid in DC5. -/
theorem valid_of_commits {n : Nat} (h : StoreCommits m w n) : ((machine m).run w n).lsu.lsc.pktDc5.valid = true := by
  have hc := h.1
  simp only [lsuCommitDc5, LsuBus.commitDc5, Lsc.commitDc5, Bool.and_eq_true] at hc
  exact hc.1.1

/-- While no flush meets a held store, a store that commits after a flush was decoded after it. -/
theorem flushedStay_run (hw : (machine m).Respects NoStoreHeld w) : FlushedStay m w := by
  rintro n k hfl hk ⟨hc, hst⟩
  have hlate := late_run (m := m) (w := w) (n := n) hfl ?_ hk
  · exact hlate.dc5 (valid_of_commits ⟨hc, hst⟩) hst
  · intro hf hv
    rw [freeze_of_flush hfl, Bool.and_eq_true, Bool.not_eq_true'] at hf
    exact hw n hfl hf.1 hf.2 hv

/-- In every run a store that commits is none that a mispredicted branch should have removed. -/
theorem mispredictedStay_run : MispredictedStay m w := by
  intro n k hff hk hst
  obtain ⟨hpair, hslot⟩ := older_of_mispredict (i := w n) (aligned_run m w n) hff
  rw [run_cycle] at hpair hslot
  constructor
  · exact (packets_run hpair (fun _ hp => Or.inr hp) hk).dc5 (valid_of_commits hst)
  · intro h0
    exact (packets_run (hslot h0) (fun _ hp => Or.inr hp) hk).dc5 (valid_of_commits hst)

/-- In every run the DCCM changes only by the entries of committed stores, in their order. -/
theorem dccmExact_run : DccmExact m w := by
  intro n s s' i
  have hs : s = (LsuMem.machine m).run (dccmPath m w) n := lsuMem_run
  have hs' : s' = s.next i := by
    have hnext : s' = (LsuMem.machine m).run (dccmPath m w) (n + 1) := lsuMem_run
    rw [hnext, Machine.run_succ, ← hs]
    rfl
  have hmem : s'.mem = s.mem.next (s.memIn i) := by rw [hs']; rfl
  refine ⟨fun hc => ?_, fun hc => ⟨?_, fun bank row => ?_⟩, LsuMem.written_prefix honoursStoreStall_run, ?_⟩
  · rw [hmem]
    funext bank row
    simp [DccmMem.next, DccmMem.bankWrite, LsuMem.memIn, hc]
  · have hrd : s.stbuf.rdPtrEn (s.stbufIn i) = true := Bool.or_eq_true_iff.mpr (Or.inl hc)
    rw [LsuMem.leaving, hrd, if_pos rfl, hc]
  · have hfree : i.freeze = false := by
      have hc' := hc
      simp only [LsuMem.stbufCommitAny, Bool.and_eq_true, Bool.not_eq_true'] at hc'
      exact hc'.1.2
    rw [hmem]
    simp [DccmMem.next, DccmMem.bankWrite, LsuMem.memIn, hc, hfree]
  · obtain ⟨q, ms, h⟩ := LsuMem.tracks_run (m := m) (w := dccmPath m w) honoursStoreStall_run n
    exact ⟨_, h.tags.symm⟩

/-- In every run the bus sees only external stores that have committed, each until it is answered. -/
theorem busExact_run : BusExact m w := by
  intro n s s'
  have hs' : s' = s.next (((machine m).run w n).lsuIn (w n)) := rfl
  refine ⟨fun hwrite => ?_, fun hp hp' => ?_, fun hp hr => ?_⟩
  · rw [← Bool.not_eq_false]
    intro hno
    simp [BusIntf.mmioReq, hno] at hwrite
  · have hreq : s.storeRequestDc5 (((machine m).run w n).lsuIn (w n)) = true := by
      rw [← Bool.not_eq_false]
      intro hno
      rw [hs', LsuBus.next_store_none hp hno] at hp'
      exact Bool.false_ne_true hp'
    have hset := LsuBus.next_store_set hp hreq
    have hparts := hreq
    simp only [LsuBus.storeRequestDc5, LsuBus.busreqDc5, Bool.and_eq_true] at hparts
    exact ⟨⟨hparts.2, hparts.1.2⟩, hparts.1.1.1.2, hset.2⟩
  · exact LsuBus.next_store_kept hp hr

/-- Without debug requests each store that commits is marked in the store buffer or requested on the bus. -/
theorem committedTakeEffect_run (hw : (machine m).Respects RunsFreely w) : CommittedTakeEffect m w := by
  rintro n ⟨hc, hst⟩
  have ha : (machine m).Respects (fun s i => s.fpu.Answers i.fpu) w := fun k => (hw k).1
  have hplace := place_of_commit ha hc hst
  rw [Bool.or_eq_true] at hplace
  rcases hplace with hreq | hext
  · refine Or.inl ?_
    have hcommit : ((machine m).run w n).lsuMem.lsc.commitDc5 (dccmPath m w n) = true := hc
    have htaken : ((machine m).run w n).lsuMem.stbuf.takenDc5 ≠ 0 := by
      have hvld : ((machine m).run w n).lsuMem.stbuf.reqvldDc5 = true := hreq
      rw [Stbuf.takenDc5, Stbuf.specvld, hvld, if_pos rfl]
      split_ifs <;> decide
    rw [LsuMem.deciding, hcommit, List.mem_replicate]
    exact ⟨htaken, rfl⟩
  · refine Or.inr ?_
    have hv := valid_of_commits ⟨hc, hst⟩
    have hreq : ((machine m).run w n).lsu.storeRequestDc5 (((machine m).run w n).lsuIn (w n)) = true := by
      have hcommit : ((machine m).run w n).lsu.commitDc5 (((machine m).run w n).lsuIn (w n)) = true := hc
      rw [LsuBus.storeRequestDc5, LsuBus.busreqDc5, hv, hext, hst, hcommit]
      simp
    -- the store is the one external access under way, so no other store is pending
    have hfree : ((machine m).run w n).lsu.bus.storePending = false := by
      have halone := (aligned_run m w n).one.alone
      have hext5 := LsuBus.of_storeRequestDc5 hreq
      simp only [LsuBus.places, List.pairwise_cons] at halone
      have hpair := halone.2.2.2.1 _ (List.mem_singleton.mpr rfl)
      rw [← Bool.not_eq_true]
      exact fun hp => hpair ⟨hext5, hp⟩
    exact ⟨hfree, LsuBus.next_store_set hfree hreq⟩

/-- In every run outside debug mode in which no flush comes while a load waits for the bus with a store before it in
DC3, stores take effect exactly when the trap unit commits them. -/
theorem stores_exact {m : DccmMem} {w : Nat → CpuIn}
    (hw : (machine m).Respects (fun s i => s.RunsFreely i ∧ s.NoStoreHeld i) w) : StoresExact m w := by
  have hfree : (machine m).Respects RunsFreely w := fun n => (hw n).1
  exact ⟨commitAgrees_run hfree, faultsStay_run hfree, flushedStay_run fun n => (hw n).2, mispredictedStay_run,
    dccmExact_run, busExact_run, committedTakeEffect_run hfree⟩

/-- `sw t0, 0(ra)` at address `0x80`, with `ra` in the DCCM. -/
def presentDccmStore : CpuIn :=
  { dec := { i0 := { valid := true, instr := 0x0050a023, pc := 0x40 } },
    lsu := { lsc := { rs1D := 0x20000, rs2D := 0x41 } } }

/-- The store alone. -/
def storeAlone : List CpuIn := [presentDccmStore, {}, {}]

/-- It commits in cycle 5 and is written to the DCCM. -/
theorem stores_exact_storeAlone :
    StoresExact zeroDccm (storeAlone.getD · {}) ∧ StoreCommits zeroDccm (storeAlone.getD · {}) 5 ∧
    ((machine zeroDccm).run (storeAlone.getD · {}) 7).mem.bankMem 0 0 = 0x41 := by
  refine ⟨stores_exact ?_, ⟨by decide +kernel, by decide +kernel⟩, by decide +kernel⟩
  refine Machine.respects_getD_of_stable (I := NoLoadNear) (by decide +kernel) ?_ (fun _ h => h.rest) ?_
  · exact ⟨(sound_run _ _ _).lsc, by decide +kernel, by decide +kernel, by decide +kernel⟩
  · rintro s ⟨-, -, -, hp⟩
    refine ⟨⟨nofun, rfl, rfl⟩, fun _ h => ?_⟩
    exact absurd (hp.symm.trans h) Bool.false_ne_true

/-- `lw t0, 0(ra)` at address `0x84`, with `ra` at the UART. -/
def presentLoadBehind : CpuIn :=
  { dec := { i0 := { valid := true, instr := 0x0000a283, pc := 0x42 } }, lsu := { lsc := { rs1D := 0x10001000 } } }

/-- The store, a load from the UART behind it, an interrupt while the load waits, and the answer of the bus. -/
def storeBeforeLoad : List CpuIn :=
  [presentDccmStore, presentLoadBehind, {}, {}, { tlu := { intReady := true } }, {}, {},
    { lsu := { mmioReady := true } }, {}, {}, {}]

/-- The flush of cycle 5 meets the store in DC3 and is lost on it: the store commits in cycle 9 and changes the DCCM. -/
theorem flushed_store_commits :
    (machine zeroDccm).Respects RunsFreely (storeBeforeLoad.getD · {}) ∧
    ¬StoresExact zeroDccm (storeBeforeLoad.getD · {}) ∧
    ((machine zeroDccm).run (storeBeforeLoad.getD · {}) 5).flushLowerWb = true ∧
    ((machine zeroDccm).run (storeBeforeLoad.getD · {}) 5).lsu.lsc.pktDc3.valid = true ∧
    ((machine zeroDccm).run (storeBeforeLoad.getD · {}) 5).lsu.lsc.pktDc3.store = true ∧
    ((machine zeroDccm).run (storeBeforeLoad.getD · {}) 5).lsu.lsc.pktDc3.tag = 0 ∧
    ((machine zeroDccm).run (storeBeforeLoad.getD · {}) 9).lsuCommitDc5 {} = true ∧
    ((machine zeroDccm).run (storeBeforeLoad.getD · {}) 9).lsu.lsc.pktDc5.tag = 0 ∧
    ((machine zeroDccm).run (storeBeforeLoad.getD · {}) 12).mem.bankMem 0 0 = 0x41 := by
  refine ⟨Machine.respects_getD ?_ fun s => ⟨nofun, rfl, rfl⟩, fun h => ?_, by decide +kernel⟩
  · decide +kernel
  · have hlate := h.flushed 5 9 (by decide +kernel) (by decide) ⟨by decide +kernel, by decide +kernel⟩
    revert hlate
    decide +kernel

end Cpu

end SocRV
