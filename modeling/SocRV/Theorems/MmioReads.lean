import SocRV.Core.LsuCommit
import SocRV.Soc.MmioLoad
import SocRV.Theorems.Flush

/-!
# Reads on the peripheral bus

A load asks for the bus in DC2, when older instructions are still on their way through E3 and E4 and the branch next to
it has not taken effect.  If none of them, no interrupt and no trigger gets in its way until it is in E4, the load waits
for its answer and commits three cycles after it: in E4 it has no cause of its own left that would kill it.  Nothing in
the core waits for the older instructions, so a read can reach a peripheral for a load that is killed.
-/

namespace SocRV

namespace Cpu

variable {s : Cpu} {i : CpuIn} {t : Nat}

/-- The trap unit asks for no flush and kills no write in this cycle. -/
def TluQuiet (s : Cpu) (i : CpuIn) : Prop :=
  s.tlu.tluFlushLowerE4 (s.tluIn i) = false ∧ s.tlu.tluI0KillWritebE4 (s.tluIn i) = false ∧
    s.tlu.tluI1KillWritebE4 (s.tluIn i) = false

/-- No trigger hits the load in DC4, and if it is in slot `i1` the instruction in front of it is not fetched again,
mispredicted or taken to a misaligned target. -/
def FrontGoesOn (s : Cpu) (i : CpuIn) : Prop :=
  (s.lsu.lsc.i0ValidDc4 = true → s.tlu.i0TriggerHitE4 (s.tluIn i) = false) ∧
    (s.lsu.lsc.i0ValidDc4 = false → (s.tlu.rfpcI0E4 (s.tluIn i) || (s.tluIn i).i0BrMpE4 ||
      s.tlu.instMisalignedI0E4 (s.tluIn i) || s.tlu.triggerHitE4 (s.tluIn i)) = false)

/-- Nothing older gets in the way of an external load: the trap unit is quiet while it asks for the bus and waits, it is
not cancelled, no branch next to it was mispredicted, there is no flush while it is in DC3, and in DC4 the instruction
in front of it goes on. -/
structure Undisturbed (s : Cpu) (i : CpuIn) : Prop where
  asks : s.lsu.loadRequestDc2 (s.lsuIn i) = true → s.TluQuiet i
  waits : s.lsu.bus.loadPending = true → s.TluQuiet i
  cancel : s.lsu.bus.loadPending = true → i.lsu.mmioReady = false → s.tlu.cancelE4 i.tlu = false
  branch : s.lsu.bus.loadPending = true → s.lsu.lsc.i0ValidDc2 = false → s.exu.i0.flushUpperE2 = false
  -- `not_blocked_next`: the interrupts are blocked only in a frozen cycle, and here the freeze is over
  dc3 : s.lsu.lsc.externalDc3 = true → s.lsu.lsc.pktDc3.load = true → s.tlu.tluFlushLowerE4 (s.tluIn i) = false
  dc4 : s.lsu.lsc.externalDc4 = true → s.lsu.lsc.pktDc4.load = true → s.FrontGoesOn i

instance (s : Cpu) (i : CpuIn) : Decidable (s.TluQuiet i) := by
  unfold TluQuiet
  infer_instance

instance (s : Cpu) (i : CpuIn) : Decidable (s.FrontGoesOn i) := by
  unfold FrontGoesOn
  infer_instance

theorem undisturbed_iff (s : Cpu) (i : CpuIn) :
    s.Undisturbed i ↔
      ((s.lsu.loadRequestDc2 (s.lsuIn i) = true ∨ s.lsu.bus.loadPending = true → s.TluQuiet i) ∧
      (s.lsu.bus.loadPending = true → (i.lsu.mmioReady = false → s.tlu.cancelE4 i.tlu = false) ∧
        (s.lsu.lsc.i0ValidDc2 = false → s.exu.i0.flushUpperE2 = false)) ∧
      (s.lsu.lsc.externalDc3 = true → s.lsu.lsc.pktDc3.load = true → s.tlu.tluFlushLowerE4 (s.tluIn i) = false) ∧
      (s.lsu.lsc.externalDc4 = true → s.lsu.lsc.pktDc4.load = true → s.FrontGoesOn i)) :=
  ⟨fun h => ⟨fun hr => hr.elim h.asks h.waits, fun hp => ⟨h.cancel hp, h.branch hp⟩, h.dc3, h.dc4⟩,
    fun ⟨h1, h2, h3, h4⟩ => ⟨fun hr => h1 (.inl hr), fun hp => h1 (.inr hp), fun hp => (h2 hp).1, fun hp => (h2 hp).2,
      h3, h4⟩⟩

instance (s : Cpu) (i : CpuIn) : Decidable (s.Undisturbed i) := decidable_of_iff' _ (undisturbed_iff s i)

/-! ## From the request to the commit -/

/-- While a load waits no flush line is high. -/
structure WaitsInPeace (s : Cpu) : Prop extends Aligned s where
  flush : s.lsu.bus.loadPending = true → s.flushLowerWb = false
  kill : s.lsu.bus.loadPending = true → s.tlu.i0KillWritebWb = false ∧ s.tlu.i1KillWritebWb = false

theorem waitsInPeace_reset (m : DccmMem) : WaitsInPeace { mem := m } :=
  { aligned_reset m with flush := nofun, kill := nofun }

/-- An undisturbed cycle keeps the waiting load in peace. -/
theorem WaitsInPeace.next (h : WaitsInPeace s) (hu : s.Undisturbed i) : WaitsInPeace (s.next i) := by
  have hquiet : (s.next i).lsu.bus.loadPending = true → s.TluQuiet i := fun hp => by
    rcases (LsuBus.of_next_loadPending hp).1 with hp | hr
    · exact hu.waits hp
    · exact hu.asks hr
  exact { h.toAligned.next with flush := fun hp => (hquiet hp).1, kill := fun hp => (hquiet hp).2 }

/-- The load decoded in cycle `t` waits for the bus. -/
def WaitsFor (s : Cpu) (t : Nat) : Prop := s.lsu.bus.loadPending = true ∧ s.lsu.lsc.pktDc2.tag = t

/-- The external load decoded in cycle `t` is in DC3 without a fault, and no flush line reaches it. -/
structure SafeInDc3 (s : Cpu) (t : Nat) : Prop where
  external : s.lsu.lsc.externalDc3 = true
  load : s.lsu.lsc.pktDc3.load = true
  tag : s.lsu.lsc.pktDc3.tag = t
  fault : s.lsu.lsc.accessFaultDc3 = false ∧ s.lsu.lsc.misalignedFaultDc3 = false
  flush : s.flushes.dc3 = false

/-- The external load decoded in cycle `t` is in DC4, the trap unit sees no fault of it, and no flush line reaches it. -/
structure SafeInDc4 (s : Cpu) (t : Nat) : Prop where
  external : s.lsu.lsc.externalDc4 = true
  load : s.lsu.lsc.pktDc4.load = true
  tag : s.lsu.lsc.pktDc4.tag = t
  fault : s.tlu.lsuErrorPktDc4.excValid = false
  flush : s.flushLowerWb = false

/-- The load decoded in cycle `t` commits in DC5. -/
def CommitsLoad (s : Cpu) (i : CpuIn) (t : Nat) : Prop :=
  s.lsu.commitDc5 (s.lsuIn i) = true ∧ s.lsu.lsc.pktDc5.load = true ∧ s.lsu.lsc.pktDc5.tag = t

/-- A load that is not answered goes on waiting. -/
theorem WaitsInPeace.waits_next (h : WaitsInPeace s) (hu : s.Undisturbed i) (hw : s.WaitsFor t)
    (hr : i.lsu.mmioReady = false) : (s.next i).WaitsFor t := by
  obtain ⟨hp, ht⟩ := hw
  have hclear : s.lsu.loadClear (s.lsuIn i) = false := by
    have hready : (s.lsuIn i).mmioReady = false := hr
    have hcancel : (s.lsuIn i).cancelE4 = false := hu.cancel hp hr
    have hff := h.waits hp
    simp only [Dec.flushFinalE3, Bool.or_eq_false_iff] at hff
    simp [LsuBus.loadClear, hready, hcancel, hff.1, h.flush hp, flushes, h.kill hp]
  have hpend : (s.next i).lsu.bus.loadPending = true := by
    simp [LsuBus.next, LsuBus.nextBus, hp, hclear]
  exact ⟨hpend, (LsuBus.of_next_loadPending hpend).2.2 ▸ ht⟩

/-- A load that is answered moves to DC3. -/
theorem WaitsInPeace.dc3_next (h : WaitsInPeace s) (hu : s.Undisturbed i) (hw : s.WaitsFor t)
    (hr : i.lsu.mmioReady = true) : (s.next i).SafeInDc3 t := by
  obtain ⟨hp, ht⟩ := hw
  obtain ⟨hext, hload, -, -⟩ := h.one.load hp
  have hv2 : s.lsu.lsc.pktDc2.valid = true := (Bool.and_eq_true_iff.mp hext).1
  have hff := h.waits hp
  have hup : (s.lsuIn i).lsc.flush.dc2Up = false := by
    rw [lsuIn_flush, flushes_dc2Up, hff, h.flush hp]
    rfl
  obtain ⟨hpkt, -, -, hexternal, hacc, hmis, -, -⟩ := LsuBus.next_answered (i := s.lsuIn i) h.one hp hr hup
  have heq : (s.next i).lsu.lsc.pktDc3 = s.lsu.lsc.pktDc2 := hpkt
  -- the branch next to the load: in slot `i0` there is none, in slot `i1` it was predicted right
  have hbranch : s.exu.i0.flushUpperE2 = false := by
    cases h0 : s.lsu.lsc.i0ValidDc2 with
    | false => exact hu.branch hp h0
    | true =>
      by_contra hup2
      rw [Bool.not_eq_false] at hup2
      rw [(h.dc2 hff).slot hv2, h.flushE2 hup2] at h0
      cases h0
  refine ⟨?_, heq ▸ hload, heq ▸ ht, ⟨hacc, hmis⟩, ?_⟩
  · have hexternal3 : (s.next i).lsu.lsc.addrExternalDc3 = true := hexternal
    rw [Lsc.externalDc3, heq, hv2, hexternal3]
    rfl
  · have hf : s.freeze i = false := LsuBus.freezeDc3_of_answered (i := s.lsuIn i) hp hr
    have hi0 : (s.next i).dec.i0FlushFinalE3 = false := by
      simp [Dec.next, hf, decIn, Exu.i0FlushFinal, h.flush hp, hbranch]
    rw [flushes_dc3, hi0]
    exact (hu.waits hp).1

/-- The freeze is over in the cycle of the answer, so interrupts are not blocked while the load is in DC3. -/
theorem not_blocked_next (hp : s.lsu.bus.loadPending = true) (hr : i.lsu.mmioReady = true) :
    (s.next i).tlu.lsuBlockInterruptsE4 = false := by
  have hblock : (s.next i).tlu.lsuBlockInterruptsE4 =
      ((s.freeze i && s.lsu.lsc.isSideeffectsDc3) && !s.flushLowerWb) := rfl
  have hf : s.freeze i = false := LsuBus.freezeDc3_of_answered (i := s.lsuIn i) hp hr
  rw [hblock, hf]
  rfl

/-- Behind an external load in DC3 there is none in DC2. -/
theorem WaitsInPeace.no_external_dc2 (h : WaitsInPeace s) (h3 : s.lsu.lsc.externalDc3 = true) :
    s.lsu.lsc.externalDc2 = false := by
  have halone := h.one.alone
  simp only [LsuBus.places, List.pairwise_cons] at halone
  by_contra h2
  rw [Bool.not_eq_false] at h2
  exact halone.1 s.lsu.lsc.externalDc3 (by simp) ⟨h2, h3⟩

/-- From DC3 the load moves to DC4: nothing behind it asks for the bus. -/
theorem WaitsInPeace.dc4_next (h : WaitsInPeace s) (hu : s.Undisturbed i) (h3 : s.SafeInDc3 t) :
    (s.next i).SafeInDc4 t := by
  have hno2 := h.no_external_dc2 h3.external
  have hno : s.lsu.bus.loadPending = false := by
    rw [← Bool.not_eq_true]
    exact fun hp => Bool.false_ne_true (hno2.symm.trans (h.one.load hp).1)
  have hf : s.freeze i = false := by
    have hreq : s.lsu.loadRequestDc2 (s.lsuIn i) = false := by
      rw [← Bool.not_eq_true]
      exact fun hr => Bool.false_ne_true (hno2.symm.trans (LsuBus.of_loadRequestDc2 hr).1)
    rw [← freezeDc3_lsuIn, LsuBus.freezeDc3, hreq, hno]
    rfl
  have hm := Lsc.moves_dc4 (s := s.lsu.lsc) (i := s.lsu.lscIn (s.lsuIn i))
  rw [LsuBus.lscIn_flush, LsuBus.lscIn_freeze, freezeDc3_lsuIn, lsuIn_flush, h3.flush, hf] at hm
  have hv : (s.next i).lsu.lsc.pktDc4.valid = true := by
    refine hm.valid.trans ?_
    rw [(Bool.and_eq_true_iff.mp h3.external).1]
    rfl
  have heq : (s.next i).lsu.lsc.pktDc4 = s.lsu.lsc.pktDc3 := (hm.same hv).1
  refine ⟨?_, heq ▸ h3.load, heq ▸ h3.tag, ?_, hu.dc3 h3.external h3.load⟩
  · refine (Lsc.next_externalDc4 (i := s.lsu.lscIn (s.lsuIn i))).trans ?_
    rw [LsuBus.lscIn_freeze, freezeDc3_lsuIn, hf, LsuBus.lscIn_flush, lsuIn_flush, h3.flush, h3.external]
    rfl
  · rw [next_excValid, lsuErrorPktDc3, h3.fault.1, h3.fault.2, LsuBus.ldBusErrorDc3, hno]
    rfl

/-- From DC4 the load moves to DC5 and commits, unless its slot is killed. -/
theorem commits_next (h4 : s.SafeInDc4 t) (hk0 : s.tlu.tluI0KillWritebE4 (s.tluIn i) = false)
    (hk1 : s.lsu.lsc.i0ValidDc4 = false → s.tlu.tluI1KillWritebE4 (s.tluIn i) = false) (i' : CpuIn) :
    (s.next i).CommitsLoad i' t := by
  have hpkt : (s.next i).lsu.lsc.pktDc5 = { s.lsu.lsc.pktDc4 with
      valid := s.lsu.lsc.pktDc4.valid && !s.flushLowerWb } := rfl
  have hv : s.lsu.lsc.pktDc4.valid = true := (Bool.and_eq_true_iff.mp h4.external).1
  have hfl : (s.next i).flushes.dc5 = false := by
    have hslot : (s.next i).lsu.lsc.i0ValidDc5 = s.lsu.lsc.i0ValidDc4 := rfl
    have h0 : (s.next i).tlu.i0KillWritebWb = false := hk0
    have h1 : (s.next i).tlu.i1KillWritebWb = s.tlu.tluI1KillWritebE4 (s.tluIn i) := rfl
    rw [flushes, h0, h1, hslot]
    cases hs : s.lsu.lsc.i0ValidDc4 with
    | true => simp
    | false => simp [hk1 hs]
  refine ⟨?_, hpkt ▸ h4.load, hpkt ▸ h4.tag⟩
  rw [LsuBus.commitDc5, Lsc.commitDc5, LsuBus.lscIn_flush, lsuIn_flush, hfl, hpkt]
  simp [hv, h4.flush, h4.load]

/-! ## Whole runs -/

/-- A read is on the bus. -/
def PresentsRead (s : Cpu) : Prop := s.lsu.bus.mmioValid = true ∧ s.lsu.bus.mmioReq.write = false

/-- Every read on the bus is for a load that commits later, unless the bus never answers it. -/
def PreciseReads (m : DccmMem) (w : Nat → CpuIn) : Prop :=
  ∀ n, ((machine m).run w n).PresentsRead →
    (∃ k, n < k ∧ ((machine m).run w k).CommitsLoad (w k) ((machine m).run w n).lsu.lsc.pktDc2.tag) ∨
    (∀ k, n ≤ k → (w k).lsu.mmioReady = false)

/-- A read on the bus is that of a pending load. -/
theorem loadPending_of_presentsRead (h : s.PresentsRead) : s.lsu.bus.loadPending = true := by
  obtain ⟨hv, hw⟩ := h
  cases hst : s.lsu.bus.storePending with
  | false => simpa [BusIntf.mmioValid, hst] using hv
  | true => simp [BusIntf.mmioReq, hst] at hw

/-- In an undisturbed run every waiting load does so in peace. -/
theorem waitsInPeace_run {m : DccmMem} {w : Nat → CpuIn} (hw : (machine m).Respects Undisturbed w) (n : Nat) :
    WaitsInPeace ((machine m).run w n) :=
  Machine.run_invariant (waitsInPeace_reset m) (fun _ _ h hu => h.next hu) hw n

/-- In DC4 only the instruction in front of it or a trigger can still stop the load. -/
theorem not_killed_run {m : DccmMem} {w : Nat → CpuIn} {n t : Nat} (hu : ((machine m).run w n).Undisturbed (w n))
    (h4 : ((machine m).run w n).SafeInDc4 t) :
    ((machine m).run w n).tlu.tluI0KillWritebE4 (((machine m).run w n).tluIn (w n)) = false ∧
      (((machine m).run w n).lsu.lsc.i0ValidDc4 = false →
        ((machine m).run w n).tlu.tluI1KillWritebE4 (((machine m).run w n).tluIn (w n)) = false) := by
  obtain ⟨hfront0, hfront1⟩ := hu.dc4 h4.external h4.load
  have hv : ((machine m).run w n).lsu.lsc.pktDc4.valid = true := (Bool.and_eq_true_iff.mp h4.external).1
  have hagrees := (aligned_run m w n).dc4
  have hslot := hagrees.slot hv
  cases h0 : ((machine m).run w n).lsu.lsc.i0ValidDc4 with
  | true =>
    rw [kill0_of_access (hslot.symm.trans h0) h4.fault]
    exact ⟨hfront0 h0, nofun⟩
  | false =>
    have hlsu1 : ((machine m).run w n).dec.e4d.lsu1 = true := by
      have hvalid := hagrees.valid
      rw [hv, ← hslot, h0, Bool.false_or] at hvalid
      exact hvalid.symm
    have hkill := (kill1_of_access hlsu1 h4.fault).trans (hfront1 h0)
    rw [Bool.or_eq_false_iff] at hkill
    exact ⟨hkill.1, fun _ => hkill.2⟩

/-- A load that waits and is answered commits three cycles later. -/
theorem commits_of_answer {m : DccmMem} {w : Nat → CpuIn} (hw : (machine m).Respects Undisturbed w) {n t : Nat}
    (hwait : ((machine m).run w n).WaitsFor t) (hr : (w n).lsu.mmioReady = true) :
    ((machine m).run w (n + 3)).CommitsLoad (w (n + 3)) t := by
  have h3 : ((machine m).run w (n + 1)).SafeInDc3 t := (waitsInPeace_run hw n).dc3_next (hw n) hwait hr
  have h4 : ((machine m).run w (n + 2)).SafeInDc4 t := (waitsInPeace_run hw (n + 1)).dc4_next (hw (n + 1)) h3
  obtain ⟨hk0, hk1⟩ := not_killed_run (hw (n + 2)) h4
  exact commits_next h4 hk0 hk1 (w (n + 3))

/-- A load that waits commits once it is answered, however long that takes. -/
theorem commits_of_ready {m : DccmMem} {w : Nat → CpuIn} (hw : (machine m).Respects Undisturbed w) {n t d : Nat}
    (hwait : ((machine m).run w n).WaitsFor t) (hr : (w (n + d)).lsu.mmioReady = true) :
    ∃ k, n < k ∧ ((machine m).run w k).CommitsLoad (w k) t := by
  induction d generalizing n with
  | zero => exact ⟨n + 3, by omega, commits_of_answer hw hwait hr⟩
  | succ d ih =>
    cases hnow : (w n).lsu.mmioReady with
    | true => exact ⟨n + 3, by omega, commits_of_answer hw hwait hnow⟩
    | false =>
      have hnext : ((machine m).run w (n + 1)).WaitsFor t :=
        (waitsInPeace_run hw n).waits_next (hw n) hwait hnow
      have hshift : n + 1 + d = n + (d + 1) := by omega
      obtain ⟨k, hk, hc⟩ := ih hnext (hshift ▸ hr)
      exact ⟨k, by omega, hc⟩

/-- In every run in which nothing older gets in the way of an external load between its request and E4, every read on
the bus is for a load that commits, unless the bus never answers. -/
theorem reads_precise {m : DccmMem} {w : Nat → CpuIn} (hw : (machine m).Respects Undisturbed w) : PreciseReads m w := by
  intro n hread
  by_cases hans : ∃ k, n ≤ k ∧ (w k).lsu.mmioReady = true
  · obtain ⟨k, hk, hr⟩ := hans
    refine Or.inl (commits_of_ready hw ⟨loadPending_of_presentsRead hread, rfl⟩ (d := k - n) ?_)
    rwa [Nat.add_sub_cancel' hk]
  · refine Or.inr fun k hk => ?_
    by_contra hr
    rw [Bool.not_eq_false] at hr
    exact hans ⟨k, hk, hr⟩

/-! ## A load that reads the UART and commits, and one that is lost -/

instance (s : Cpu) : Decidable s.PresentsRead := by
  unfold PresentsRead
  infer_instance

instance (s : Cpu) (i : CpuIn) (t : Nat) : Decidable (s.CommitsLoad i t) := by
  unfold CommitsLoad
  infer_instance

/-- Without a load in DC2 to DC4 there is nothing to disturb. -/
theorem undisturbed_of_idle (h2 : s.lsu.lsc.pktDc2.valid = false) (hp : s.lsu.bus.loadPending = false)
    (h3 : s.lsu.lsc.pktDc3.valid = false) (h4 : s.lsu.lsc.pktDc4.valid = false) : s.Undisturbed i := by
  have hreq : s.lsu.loadRequestDc2 (s.lsuIn i) = false := by
    by_contra hr
    rw [Bool.not_eq_false] at hr
    rw [LsuBus.valid_of_loadRequestDc2 hr] at h2
    cases h2
  rw [undisturbed_iff]
  simp [hreq, hp, Lsc.externalDc3, Lsc.externalDc4, h3, h4]

/-- The load of the UART, and the answer of the bus in cycle 5. -/
def answeredLoad : List CpuIn := [presentUartLoad, {}, {}, {}, {}, { lsu := { mmioReady := true } }, {}, {}]

/-- The read is on the bus until it is answered. -/
example : (List.range 8).map (fun n => decide ((machine zeroDccm).run (answeredLoad.getD · {}) n).PresentsRead) =
    [false, false, false, true, true, true, false, false] := by
  decide +kernel

/-- The run with one answered load is undisturbed. -/
theorem answeredLoad_undisturbed :
    (machine zeroDccm).Respects Undisturbed (answeredLoad.getD · {}) := by
  refine Machine.respects_getD_of_stable (I := fun s => NoLoadNear s ∧ s.lsu.lsc.pktDc3.valid = false ∧
    s.lsu.lsc.pktDc4.valid = false) (by decide +kernel) ?_ ?_ ?_
  · exact ⟨⟨(sound_run _ _ _).lsc, by decide +kernel, by decide +kernel, by decide +kernel⟩, by decide +kernel,
      by decide +kernel⟩
  · rintro s ⟨hnear, h3, h4⟩
    obtain ⟨hg, h1, h2, hp⟩ := id hnear
    refine ⟨hnear.rest, ?_, ?_⟩
    · refine (Lsc.next_validDc3 hg).trans ?_
      rw [h2, h3]
      simp
    · refine (Lsc.moves_dc4 (s := s.lsu.lsc)).valid.trans ?_
      rw [h3]
      rfl
  · rintro s ⟨⟨-, -, h2, hp⟩, h3, h4⟩
    exact undisturbed_of_idle h2 hp h3 h4

/-- The read is on the bus from cycle 3 and its load commits in cycle 8. -/
theorem reads_precise_answeredLoad :
    PreciseReads zeroDccm (answeredLoad.getD · {}) ∧
    ((machine zeroDccm).run (answeredLoad.getD · {}) 3).PresentsRead ∧
    ((machine zeroDccm).run (answeredLoad.getD · {}) 8).CommitsLoad {} 0 :=
  ⟨reads_precise answeredLoad_undisturbed, by decide +kernel, by decide +kernel⟩

/-- The load of the UART, an interrupt while it waits in DC2, and the answer of the bus in the cycle of the flush. -/
def lostLoad : List CpuIn :=
  [presentUartLoad, {}, {}, {}, {}, {}, { tlu := { intReady := true } }, { lsu := { mmioReady := true } }]

/-- The read is on the bus from cycle 3 to 7 and answered, and the load never commits. -/
theorem read_of_killed_load : ¬PreciseReads zeroDccm (lostLoad.getD · {}) := by
  have hans : (machine zeroDccm).Respects (fun s i => s.fpu.Answers i.fpu) (lostLoad.getD · {}) :=
    Machine.respects_getD (by decide +kernel) fun _ => nofun
  intro h
  rcases h 3 (by decide +kernel) with ⟨k, hk, hc⟩ | hnever
  · have htag : ((machine zeroDccm).run (lostLoad.getD · {}) 3).lsu.lsc.pktDc2.tag = 0 := by decide +kernel
    rw [htag] at hc
    by_cases hlate : 7 < k
    · have hin := inFlight_after_flush hans (n := 7) (by decide +kernel) (fun _ => rfl) hlate
      have hv : ((machine zeroDccm).run (lostLoad.getD · {}) k).lsu.lsc.pktDc5.valid = true := by
        have hcommit := hc.1
        simp only [LsuBus.commitDc5, Lsc.commitDc5, Bool.and_eq_true] at hcommit
        exact hcommit.1.1
      have hseven := hin.lsu.dc5 hv
      rw [hc.2.2] at hseven
      cases hseven
    · have hcases : k = 4 ∨ k = 5 ∨ k = 6 ∨ k = 7 := by omega
      rcases hcases with rfl | rfl | rfl | rfl
      all_goals exact absurd hc (by decide +kernel)
  · exact absurd (hnever 7 (by decide)) (by decide)

end Cpu

end SocRV
