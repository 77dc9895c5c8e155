import SocRV.Lsu.FlatMemory

/-!
# The DCCM path refines a flat memory

The committed stores, in order, are the history of a flat memory.  At every moment the banks hold a prefix of
that history, the drained part, and the rest is in the store buffer; a younger access sees the banks through the
entries of all older stores that are not dropped.  An access in DC2 has the bytes of the banks, one in DC3 the
bytes seen through the buffer, and a load that reaches DC5 the bytes of the committed history.
-/

namespace SocRV

namespace LsuMem

open StbufEntry Overlay

/-! ## What the surroundings promise -/

section Env

variable (s : LsuMem) (i : LscIn)

/-- A valid access to the DCCM in DC2. -/
def dccmDc2 : Bool := s.lsc.pktDc2.valid && inDccm s.lsc.addrDc2

/-- A valid access to the DCCM in DC3. -/
def dccmDc3 : Bool := s.lsc.pktDc3.valid && inDccm s.lsc.addrDc3

/-- A valid access to the DCCM in DC4. -/
def dccmDc4 : Bool := s.lsc.pktDc4.valid && inDccm s.lsc.addrDc4

/-- A valid access to the DCCM in DC5. -/
def dccmDc5 : Bool := s.lsc.pktDc5.valid && inDccm s.lsc.addrDc5

/-- Decode issues loads and stores of one size, and a store only while the store buffer is not full. -/
def Issues : Prop :=
  i.p.valid = true → i.p.OneSize ∧ i.p.load = !i.p.store ∧ (i.p.store = true → s.stbufFullAny i = false)

/-- The accesses to the DCCM are aligned. -/
def AlignedDc1 : Prop :=
  s.lsc.pktDc1.valid = true → inDccm (s.lsc.addrDc1 (s.lscIn i)) = true →
    s.lsc.pktDc1.isAligned (s.lsc.addrDc1 (s.lscIn i)) = true

/-- No access younger than DC4 is left after this cycle. -/
def ClearsUp : Prop :=
  (s.dccmDc3 = true → i.flush.dc3 = true ∧ i.freeze = false) ∧
  (s.dccmDc2 = true → i.flush.dc2Up = true ∧ i.freeze = false) ∧
  (s.lsc.pktDc1.valid = true → i.flush.dc2Up = true ∧ i.freeze = false) ∧
  (i.p.valid = true → i.flush.dc2Up = true ∨ i.freeze = true)

/-- A flush kills the instruction and all younger ones. -/
def KillsYounger : Prop :=
  (s.dccmDc5 = true → i.flush.dc5 = true → (s.dccmDc4 = true → i.flush.dc4 = true) ∧ s.ClearsUp i) ∧
  (s.dccmDc4 = true → i.flush.dc4 = true → s.ClearsUp i)

/-- What the surroundings promise in every cycle. -/
def Env : Prop := s.Issues i ∧ s.AlignedDc1 i ∧ s.KillsYounger i

instance : Decidable (s.Issues i) :=
  inferInstanceAs (Decidable (i.p.valid = true →
    i.p.OneSize ∧ i.p.load = !i.p.store ∧ (i.p.store = true → s.stbufFullAny i = false)))

instance : Decidable (s.AlignedDc1 i) :=
  inferInstanceAs (Decidable (s.lsc.pktDc1.valid = true → inDccm (s.lsc.addrDc1 (s.lscIn i)) = true →
    s.lsc.pktDc1.isAligned (s.lsc.addrDc1 (s.lscIn i)) = true))

instance : Decidable (s.ClearsUp i) :=
  inferInstanceAs (Decidable ((s.dccmDc3 = true → i.flush.dc3 = true ∧ i.freeze = false) ∧
    (s.dccmDc2 = true → i.flush.dc2Up = true ∧ i.freeze = false) ∧
    (s.lsc.pktDc1.valid = true → i.flush.dc2Up = true ∧ i.freeze = false) ∧
    (i.p.valid = true → i.flush.dc2Up = true ∨ i.freeze = true)))

instance : Decidable (s.KillsYounger i) :=
  inferInstanceAs (Decidable (
    (s.dccmDc5 = true → i.flush.dc5 = true → (s.dccmDc4 = true → i.flush.dc4 = true) ∧ s.ClearsUp i) ∧
    (s.dccmDc4 = true → i.flush.dc4 = true → s.ClearsUp i)))

instance : Decidable (s.Env i) := inferInstanceAs (Decidable (s.Issues i ∧ s.AlignedDc1 i ∧ s.KillsYounger i))

/-- The store that commits in this cycle. -/
def committed : List (Overlay (BitVec 16) (BitVec 8)) :=
  if s.lsc.commitDc5 i && s.lsc.pktDc5.store && inDccm s.lsc.addrDc5 then
    [s.lsc.pktDc5.write (low s.lsc.addrDc5) s.lsc.storeDataDc5] else []

end Env

/-! ## The invariant -/

/-- An access as decode issues it, aligned if it is to the DCCM. -/
structure Good (p : LsuPkt) (a : BitVec 32) : Prop where
  one : p.OneSize
  kind : p.load = !p.store
  aligned : inDccm a = true → p.isAligned a = true

/-- What the registers of DC2 and DC3 know of a packet: where its address is, and that it needs one entry. -/
structure Checked (p : LsuPkt) (a : BitVec 32) (addrInDccm addrExternal dual : Bool) : Prop extends Good p a where
  inDccm_eq : addrInDccm = inDccm a
  external : inDccm a = true → addrExternal = false
  dual : inDccm a = true → dual = false

/-- The pipeline carries accesses as decode issued them. -/
structure Shape (s : LsuMem) : Prop where
  gated : s.lsc.Gated
  dc1 : s.lsc.pktDc1.valid = true → s.lsc.pktDc1.OneSize ∧ s.lsc.pktDc1.load = !s.lsc.pktDc1.store
  dc2 : s.lsc.pktDc2.valid = true →
    Checked s.lsc.pktDc2 s.lsc.addrDc2 s.lsc.addrInDccmDc2 s.lsc.addrExternalDc2 s.stbuf.dualDc2
  dc3 : s.lsc.pktDc3.valid = true →
    Checked s.lsc.pktDc3 s.lsc.addrDc3 s.lsc.addrInDccmDc3 s.lsc.addrExternalDc3 s.stbuf.dualDc3
  dc4 : s.lsc.pktDc4.valid = true → Good s.lsc.pktDc4 s.lsc.addrDc4
  dc5 : s.lsc.pktDc5.valid = true → Good s.lsc.pktDc5 s.lsc.addrDc5

variable {s : LsuMem} {i : LscIn}

@[simp] theorem lscIn_freeze : (s.lscIn i).freeze = i.freeze := rfl

@[simp] theorem lscIn_flush : (s.lscIn i).flush = i.flush := rfl

@[simp] theorem lscIn_p : (s.lscIn i).p = i.p := rfl

/-- An address of the DCCM is none of the peripherals. -/
theorem inMmio_of_inDccm {a : BitVec 32} (h : inDccm a = true) : inMmio a = false := by
  unfold inDccm inMmio at *
  simp only [Bool.and_eq_true, decide_eq_true_eq, BitVec.le_def] at h
  rw [Bool.and_eq_false_iff]
  left
  rw [decide_eq_false_iff_not, BitVec.le_def]
  have hlast := h.2
  simp at hlast ⊢
  omega

/-- A cycle keeps the accesses of the pipeline as decode issued them. -/
theorem Shape.next (h : Shape s) (hi : s.Issues i) (ha : s.AlignedDc1 i) : Shape (s.next i) := by
  have hg := h.gated
  refine ⟨hg.next _, fun hv => ?_, fun hv => ?_, fun hv => ?_, fun hv => ?_, fun hv => ?_⟩
  · rcases Lsc.of_next_validDc1 hg hv with ⟨-, hv', heq⟩ | ⟨-, hv', -, heq⟩
    · exact heq.symm ▸ h.dc1 hv'
    · exact heq.symm ▸ ⟨(hi hv').1, (hi hv').2.1⟩
  · rcases Lsc.of_next_validDc2 hg hv with ⟨hf, hv', heq, haddr, hin, hext⟩ | ⟨hf, hv', -, heq, haddr, hin, hext⟩
    · rw [lscIn_freeze] at hf
      have hdual : (s.next i).stbuf.dualDc2 = s.stbuf.dualDc2 := by
        simp [LsuMem.next, Stbuf.next, stbufIn, Lsc.freezeC1Dc2Clken, Lsc.freezeC1Clken_freeze hf]
      have hchk := h.dc2 hv'
      rw [← heq, ← haddr, ← hin, ← hext, ← hdual] at hchk
      exact hchk
    · rw [lscIn_freeze] at hf
      have hdual : (s.next i).stbuf.dualDc2 = Stbuf.dualDc1 (s.stbufIn i) := by
        simp [LsuMem.next, Stbuf.next, stbufIn, Lsc.freezeC1Dc2Clken, hv', Lsc.freezeC1Clken_valid hf]
      obtain ⟨hone, hkind⟩ := h.dc1 hv'
      have hchk : Checked s.lsc.pktDc1 (s.lsc.addrDc1 (s.lscIn i)) (s.lsc.addrInDccmDc1 (s.lscIn i))
          (s.lsc.addrExternalDc1 (s.lscIn i)) (Stbuf.dualDc1 (s.stbufIn i)) := by
        refine ⟨⟨hone, hkind, ha hv'⟩, ?_, fun hd => ?_, fun hd => ?_⟩
        · by_cases hd : inDccm (s.lsc.addrDc1 (s.lscIn i)) = true
          · exact (Lsc.addrInDccmDc1_of_isAligned hone (ha hv' hd)).1
          · rw [Bool.not_eq_true] at hd
            simp [Lsc.addrInDccmDc1, hd]
        · simp [Lsc.addrExternalDc1, inMmio_of_inDccm hd]
        · have hword := (Lsc.addrInDccmDc1_of_isAligned hone (ha hv' hd)).2
          unfold Stbuf.dualDc1 stbufIn
          rw [getLsbD_two_of_sbWord hword, bne_self_eq_false]
      have hlsc : (s.next i).lsc = s.lsc.next (s.lscIn i) := rfl
      rw [hlsc, heq, haddr, hin, hext, hdual]
      exact hchk
  · rcases Lsc.of_next_validDc3 hg hv with ⟨hf, hv', heq, haddr, hin, hext⟩ | ⟨hf, hv', -, heq, haddr, hin, hext⟩
    · rw [lscIn_freeze] at hf
      have hdual : (s.next i).stbuf.dualDc3 = s.stbuf.dualDc3 := by
        simp [LsuMem.next, Stbuf.next, stbufIn, Lsc.freezeC1Dc3Clken, Lsc.freezeC1Clken_freeze hf]
      have hchk := h.dc3 hv'
      rw [← heq, ← haddr, ← hin, ← hext, ← hdual] at hchk
      exact hchk
    · rw [lscIn_freeze] at hf
      have hdual : (s.next i).stbuf.dualDc3 = s.stbuf.dualDc2 := by
        simp [LsuMem.next, Stbuf.next, stbufIn, Lsc.freezeC1Dc3Clken, hv', Lsc.freezeC1Clken_valid hf]
      have hchk := h.dc2 hv'
      rw [← heq, ← haddr, ← hin, ← hext, ← hdual] at hchk
      exact hchk
  · obtain ⟨-, hv', -, heq⟩ := Lsc.of_next_validDc4 hv
    have hgood := (h.dc3 hv').toGood
    rw [← heq] at hgood
    exact hgood
  · obtain ⟨hv', -, heq⟩ := Lsc.of_next_validDc5 hv
    have hgood := h.dc4 hv'
    rw [← heq] at hgood
    exact hgood

/-! ## Stores in the pipeline and their entries -/

/-- The entries belong to the stores of the pipeline: the one of DC4, the one of DC5 or a store that was killed in
DC4 with everything behind it, and room for those that are still to come. -/
structure Tracked (s : LsuMem) (c p5 p4 : List StbufEntry) : Prop extends Shape s where
  queue : s.stbuf.Queue c p5 p4
  req4 : s.stbuf.reqvldDc4 = (s.dccmDc4 && s.lsc.pktDc4.store)
  req5 : s.lsc.pktDc5.valid = true → s.stbuf.reqvldDc5 = (s.dccmDc5 && s.lsc.pktDc5.store)
  dual4 : s.stbuf.reqvldDc4 = true → s.stbuf.dualWriteDc4 = false
  dual5 : s.stbuf.reqvldDc5 = true → s.stbuf.dualWriteDc5 = false
  doomed : s.stbuf.reqvldDc5 = true → s.lsc.pktDc5.valid = false →
    s.lsc.pktDc1.valid = false ∧ s.dccmDc2 = false ∧ s.dccmDc3 = false ∧ s.dccmDc4 = false
  link4 : ∀ e ∈ p4, e.patch = s.lsc.pktDc4.write (low s.lsc.addrDc4) s.lsc.storeDataDc4
  link5 : s.lsc.pktDc5.valid = true →
    ∀ e ∈ p5, e.patch = s.lsc.pktDc5.write (low s.lsc.addrDc5) s.lsc.storeDataDc5
  room : (c ++ p5 ++ p4).length + (s.lsc.pktDc1.valid && s.lsc.pktDc1.store).toNat +
    (s.dccmDc2 && s.lsc.pktDc2.store).toNat + (s.dccmDc3 && s.lsc.pktDc3.store).toNat ≤ 7

section Track

variable {c p5 p4 : List StbufEntry}

/-- The entries that have passed DC5 after a cycle. -/
def nextPassed (s : LsuMem) (i : LscIn) (c p5 : List StbufEntry) : List StbufEntry :=
  (c ++ p5.map (mark (s.lsc.commitDc5 i))).drop (s.stbuf.rdPtrEn (s.stbufIn i)).toNat

/-- The entry that a store leaving DC3 takes. -/
def nextEntered (s : LsuMem) (i : LscIn) : List StbufEntry :=
  if s.storeReqvldDc3 i then [Stbuf.newEntry (s.stbufIn i)] else []

/-- A store asks for an entry when it leaves DC3 with an address of the DCCM. -/
theorem Shape.storeReqvldDc3_eq (h : Shape s) :
    s.storeReqvldDc3 i = (s.dccmDc3 && s.lsc.pktDc3.store && !i.flush.dc3 && !i.freeze) := by
  unfold storeReqvldDc3 dccmDc3
  cases hv : s.lsc.pktDc3.valid with
  | false => simp
  | true =>
    rw [(h.dc3 hv).inDccm_eq]
    cases s.lsc.pktDc3.store <;> cases inDccm s.lsc.addrDc3 <;> simp

/-- An aligned store takes one entry. -/
theorem Shape.dualWriteDc3_eq (h : Shape s) : s.stbuf.dualWriteDc3 (s.stbufIn i) = false := by
  unfold Stbuf.dualWriteDc3
  rw [Bool.and_eq_false_iff]
  by_cases hst : s.storeReqvldDc3 i = true
  · left
    rw [h.storeReqvldDc3_eq] at hst
    simp only [Bool.and_eq_true, dccmDc3] at hst
    exact (h.dc3 hst.1.1.1.1).dual hst.1.1.1.2
  · right
    rw [Bool.not_eq_true] at hst
    exact hst

/-- A drain needs a committed store at the read pointer. -/
theorem reqvldAny_of_stbufCommitAny (h : s.stbufCommitAny i = true) : s.stbuf.reqvldAny = true := by
  unfold stbufCommitAny at h
  simp only [Bool.and_eq_true] at h
  exact h.1.1

/-- After a cycle the store buffer is the queue of its passed entries, that of DC4 and the one entered. -/
theorem Tracked.queue_next (h : Tracked s c p5 p4) :
    (s.next i).stbuf.Queue (nextPassed s i c p5) p4 (nextEntered s i) := by
  refine h.queue.next (fun hst => ?_) h.dualWriteDc3_eq h.dual5 reqvldAny_of_stbufCommitAny
  have hst' : s.storeReqvldDc3 i = true := hst
  have hroom := h.room
  rw [h.storeReqvldDc3_eq] at hst'
  simp only [Bool.and_eq_true] at hst'
  rw [hst'.1.1.1, hst'.1.1.2] at hroom
  simp only [Bool.and_self, Bool.toNat_true] at hroom
  omega

/-- The entry a store takes stands for its write. -/
theorem Shape.newEntry_patch (h : Shape s) (hst : s.storeReqvldDc3 i = true) :
    (Stbuf.newEntry (s.stbufIn i)).patch =
      s.lsc.pktDc3.write (low s.lsc.addrDc3) (s.lsc.storeDataDc3 (s.lscIn i)) := by
  have hst' := hst
  rw [h.storeReqvldDc3_eq] at hst'
  simp only [Bool.and_eq_true, dccmDc3] at hst'
  obtain ⟨⟨⟨⟨hv, hd⟩, hstore⟩, -⟩, -⟩ := hst'
  have hgood := (h.dc3 hv).toGood
  refine patch_of_store hgood.one (mod_size_of_isAligned hgood.one (hgood.aligned hd)) rfl rfl fun l hl hen => ?_
  have hle : laneOf (low s.lsc.addrDc3) ≤ l := by
    rw [byteenLo_getLsbD hgood.one _ hl, decide_eq_true_eq] at hen
    exact hen.1
  have hext : s.storeByteenExtDc3.extractLsb' 0 4 = s.lsc.pktDc3.byteenLo (low s.lsc.addrDc3) := by
    unfold storeByteenExtDc3
    rw [hstore]
    rfl
  show lane (s.datafnLoDc3 i) l = _
  unfold datafnLoDc3
  rw [lane_ofLanes _ hl, hext, hen, if_pos rfl]
  exact lane_storeData _ hl hle

/-- No store older than an access that survives is killed: the entry of DC5 belongs to a store that commits now,
and that of DC4 to a store that goes on. -/
structure Calm (s : LsuMem) (i : LscIn) : Prop where
  live : s.stbuf.reqvldDc5 = true → s.lsc.pktDc5.valid = true
  dc5 : s.dccmDc5 = true → i.flush.dc5 = false
  dc4 : s.dccmDc4 = true → i.flush.dc4 = false

/-- A younger access proves that the entry of DC5 is not that of a killed store. -/
theorem Tracked.live_of_younger (h : Tracked s c p5 p4)
    (hy : s.dccmDc2 = true ∨ s.dccmDc3 = true ∨ s.dccmDc4 = true) (hr : s.stbuf.reqvldDc5 = true) :
    s.lsc.pktDc5.valid = true := by
  by_contra hv
  rw [Bool.not_eq_true] at hv
  obtain ⟨-, h2, h3, h4⟩ := h.doomed hr hv
  simp [h2, h3, h4] at hy

theorem calm_of_not_clearsUp (hk : s.KillsYounger i) (hlive : s.stbuf.reqvldDc5 = true → s.lsc.pktDc5.valid = true)
    (hc : ¬s.ClearsUp i) : Calm s i := by
  refine ⟨hlive, fun h5 => ?_, fun h4 => ?_⟩
  · by_contra hf
    rw [Bool.not_eq_false] at hf
    exact hc (hk.1 h5 hf).2
  · by_contra hf
    rw [Bool.not_eq_false] at hf
    exact hc (hk.2 h4 hf)

/-- While an access stays alive in DC2, no older store is killed. -/
theorem Tracked.calm_of_dc2 (h : Tracked s c p5 p4) (hk : s.KillsYounger i) (h2 : s.dccmDc2 = true)
    (hs : i.flush.dc2Up = false ∨ i.freeze = true) : Calm s i := by
  refine calm_of_not_clearsUp hk (h.live_of_younger (Or.inl h2)) fun hc => ?_
  obtain ⟨hflush, hfreeze⟩ := hc.2.1 h2
  simp [hflush, hfreeze] at hs

theorem Tracked.calm_of_dc3 (h : Tracked s c p5 p4) (hk : s.KillsYounger i) (h3 : s.dccmDc3 = true)
    (hs : i.flush.dc3 = false ∨ i.freeze = true) : Calm s i := by
  refine calm_of_not_clearsUp hk (h.live_of_younger (Or.inr (Or.inl h3))) fun hc => ?_
  obtain ⟨hflush, hfreeze⟩ := hc.1 h3
  simp [hflush, hfreeze] at hs

theorem Tracked.calm_of_dc4 (h : Tracked s c p5 p4) (hk : s.KillsYounger i) (h4 : s.dccmDc4 = true)
    (hs : i.flush.dc4 = false) : Calm s i := by
  refine ⟨h.live_of_younger (Or.inr (Or.inr h4)), fun h5 => ?_, fun _ => hs⟩
  by_contra hf
  rw [Bool.not_eq_false] at hf
  rw [(hk.1 h5 hf).1 h4] at hs
  cases hs

/-- An entry of DC5 whose store commits is the one of the store in DC5. -/
theorem Tracked.dc5_of_commit (h : Tracked s c p5 p4) (hr : s.stbuf.reqvldDc5 = true)
    (hc : s.lsc.commitDc5 i = true) : s.lsc.pktDc5.valid = true ∧ s.dccmDc5 = true ∧ s.lsc.pktDc5.store = true := by
  unfold Lsc.commitDc5 at hc
  simp only [Bool.and_eq_true] at hc
  have hv := hc.1.1
  have h5 := h.req5 hv
  rw [hr] at h5
  have h5' := Bool.and_eq_true_iff.mp h5.symm
  exact ⟨hv, h5'.1, h5'.2⟩

theorem Tracked.p5_eq_nil (h : Tracked s c p5 p4) (hr : s.stbuf.reqvldDc5 = false) : p5 = [] := by
  have hlen := h.queue.dc5.1
  rw [hr] at hlen
  exact List.length_eq_zero_iff.mp hlen

theorem Tracked.p4_eq_nil (h : Tracked s c p5 p4) (hr : s.stbuf.reqvldDc4 = false) : p4 = [] := by
  have hlen := h.queue.dc4.1
  rw [hr] at hlen
  exact List.length_eq_zero_iff.mp hlen

/-- The store that commits is the one of the entry of DC5. -/
theorem Tracked.committed_eq (h : Tracked s c p5 p4) :
    s.committed i = if s.lsc.commitDc5 i then p5.map patch else [] := by
  cases hr : s.stbuf.reqvldDc5 with
  | false =>
    rw [h.p5_eq_nil hr]
    unfold committed
    rw [List.map_nil, ite_self]
    refine if_neg fun hc => ?_
    simp only [Bool.and_eq_true, Lsc.commitDc5] at hc
    have h5 := h.req5 hc.1.1.1.1
    rw [hr, dccmDc5, hc.1.1.1.1, hc.1.2, hc.2] at h5
    cases h5
  | true =>
    have hlen := h.queue.dc5.1
    rw [hr] at hlen
    obtain ⟨e, rfl⟩ := List.length_eq_one_iff.mp hlen
    unfold committed
    cases hc : s.lsc.commitDc5 i with
    | false => rfl
    | true =>
      obtain ⟨hv, hd, hst⟩ := h.dc5_of_commit hr hc
      rw [dccmDc5, hv, Bool.true_and] at hd
      rw [hst, hd, List.map_singleton, h.link5 hv e (List.mem_singleton_self e)]
      rfl

/-- In a calm cycle the entry of DC5 is committed. -/
theorem Tracked.commit_of_calm (h : Tracked s c p5 p4) (hcalm : Calm s i) (hr : s.stbuf.reqvldDc5 = true) :
    s.lsc.commitDc5 i = true := by
  have hv := hcalm.live hr
  have h5 := h.req5 hv
  rw [hr] at h5
  obtain ⟨hd, hst⟩ := Bool.and_eq_true_iff.mp h5.symm
  unfold Lsc.commitDc5
  rw [hv, hst, hcalm.dc5 hd]
  rfl

/-- An access to the DCCM is in DC2 because a freeze kept it there or because it came from DC1. -/
theorem next_dccmDc2 (h : Shape s) (h2 : (s.next i).dccmDc2 = true) :
    (i.freeze = true ∧ s.dccmDc2 = true ∧ (s.next i).lsc.pktDc2 = s.lsc.pktDc2 ∧
      (s.next i).lsc.addrDc2 = s.lsc.addrDc2) ∨
    (i.freeze = false ∧ s.lsc.pktDc1.valid = true ∧ i.flush.dc2Up = false ∧
      inDccm (s.lsc.addrDc1 (s.lscIn i)) = true ∧ (s.next i).lsc.pktDc2 = s.lsc.pktDc1 ∧
      (s.next i).lsc.addrDc2 = s.lsc.addrDc1 (s.lscIn i)) := by
  unfold dccmDc2 at h2 ⊢
  rw [Bool.and_eq_true] at h2
  rcases Lsc.of_next_validDc2 h.gated h2.1 with ⟨hf, hv, hp, ha, -⟩ | ⟨hf, hv, hfl, hp, ha, -⟩
  · exact Or.inl ⟨hf, by rw [hv, Bool.true_and, ← h2.2]; exact (congrArg inDccm ha).symm, hp, ha⟩
  · exact Or.inr ⟨hf, hv, hfl, by rw [← h2.2]; exact (congrArg inDccm ha).symm, hp, ha⟩

theorem next_dccmDc3 (h : Shape s) (h3 : (s.next i).dccmDc3 = true) :
    (i.freeze = true ∧ s.dccmDc3 = true ∧ (s.next i).lsc.pktDc3 = s.lsc.pktDc3 ∧
      (s.next i).lsc.addrDc3 = s.lsc.addrDc3) ∨
    (i.freeze = false ∧ s.dccmDc2 = true ∧ i.flush.dc2Up = false ∧ (s.next i).lsc.pktDc3 = s.lsc.pktDc2 ∧
      (s.next i).lsc.addrDc3 = s.lsc.addrDc2) := by
  unfold dccmDc3 at h3 ⊢
  unfold dccmDc2
  rw [Bool.and_eq_true] at h3
  rcases Lsc.of_next_validDc3 h.gated h3.1 with ⟨hf, hv, hp, ha, -⟩ | ⟨hf, hv, hfl, hp, ha, -⟩
  · exact Or.inl ⟨hf, by rw [hv, Bool.true_and, ← h3.2]; exact (congrArg inDccm ha).symm, hp, ha⟩
  · exact Or.inr ⟨hf, by rw [hv, Bool.true_and, ← h3.2]; exact (congrArg inDccm ha).symm, hfl, hp, ha⟩

theorem next_dccmDc4 (h4 : (s.next i).dccmDc4 = true) :
    i.freeze = false ∧ s.dccmDc3 = true ∧ i.flush.dc3 = false ∧ (s.next i).lsc.pktDc4 = s.lsc.pktDc3 := by
  unfold dccmDc4 at h4
  unfold dccmDc3
  rw [Bool.and_eq_true] at h4
  obtain ⟨hf, hv, hfl, hp⟩ := Lsc.of_next_validDc4 h4.1
  exact ⟨hf, by rw [hv, Bool.true_and]; exact h4.2, hfl, hp⟩

theorem next_dccmDc5 (h5 : (s.next i).dccmDc5 = true) :
    s.dccmDc4 = true ∧ i.flush.dc4 = false ∧ (s.next i).lsc.pktDc5 = s.lsc.pktDc4 := by
  unfold dccmDc5 at h5
  unfold dccmDc4
  rw [Bool.and_eq_true] at h5
  obtain ⟨hv, hfl, hp⟩ := Lsc.of_next_validDc5 h5.1
  exact ⟨by rw [hv, Bool.true_and]; exact h5.2, hfl, hp⟩

/-- After a cycle that clears up nothing younger is left. -/
theorem clearsUp_next (h : Shape s) (hc : s.ClearsUp i) :
    (s.next i).lsc.pktDc1.valid = false ∧ (s.next i).dccmDc2 = false ∧ (s.next i).dccmDc3 = false ∧
    (s.next i).dccmDc4 = false := by
  obtain ⟨hc3, hc2, hc1, hc0⟩ := hc
  refine ⟨?_, ?_, ?_, ?_⟩
  · by_contra hv
    rw [Bool.not_eq_false] at hv
    rcases Lsc.of_next_validDc1 h.gated hv with ⟨hf, hv', -⟩ | ⟨hf, hv', hfl, -⟩
    · have := (hc1 hv').2
      simp_all
    · have := hc0 hv'
      simp_all
  · by_contra h2
    rw [Bool.not_eq_false] at h2
    rcases next_dccmDc2 h h2 with ⟨hf, h2', -⟩ | ⟨hf, hv, hfl, -⟩
    · rw [(hc2 h2').2] at hf
      cases hf
    · rw [(hc1 hv).1] at hfl
      cases hfl
  · by_contra h3
    rw [Bool.not_eq_false] at h3
    rcases next_dccmDc3 h h3 with ⟨hf, h3', -⟩ | ⟨hf, h2, hfl, -⟩
    · rw [(hc3 h3').2] at hf
      cases hf
    · rw [(hc2 h2).1] at hfl
      cases hfl
  · by_contra h4
    rw [Bool.not_eq_false] at h4
    obtain ⟨-, h3, hfl, -⟩ := next_dccmDc4 h4
    rw [(hc3 h3).1] at hfl
    cases hfl

/-- A bit that implies another is at most it, as a number. -/
theorem toNat_le_of_imp {a b : Bool} (h : a = true → b = true) : a.toNat ≤ b.toNat := by
  cases a with
  | false => exact Nat.zero_le _
  | true => exact Nat.le_of_eq (congrArg Bool.toNat (h rfl).symm)

/-- The entries never overrun the buffer: a store is issued only when those that may follow it still fit. -/
theorem Tracked.room_next (h : Tracked s c p5 p4) (hi : s.Issues i) :
    (nextPassed s i c p5 ++ p4 ++ nextEntered s i).length +
      ((s.next i).lsc.pktDc1.valid && (s.next i).lsc.pktDc1.store).toNat +
      ((s.next i).dccmDc2 && (s.next i).lsc.pktDc2.store).toNat +
      ((s.next i).dccmDc3 && (s.next i).lsc.pktDc3.store).toNat ≤ 7 := by
  have hroom := h.room
  have hlen : (nextPassed s i c p5 ++ p4 ++ nextEntered s i).length ≤
      (c ++ p5 ++ p4).length + (s.storeReqvldDc3 i).toNat := by
    unfold nextPassed nextEntered
    simp only [List.length_append, List.length_drop, List.length_map]
    cases s.storeReqvldDc3 i <;> simp
  have h2 : ((s.next i).dccmDc2 && (s.next i).lsc.pktDc2.store) = true →
      (i.freeze = true ∧ (s.dccmDc2 && s.lsc.pktDc2.store) = true) ∨
      (i.freeze = false ∧ (s.lsc.pktDc1.valid && s.lsc.pktDc1.store) = true) := by
    intro h2
    rw [Bool.and_eq_true] at h2
    rcases next_dccmDc2 h.toShape h2.1 with ⟨hf, hd, hp, -⟩ | ⟨hf, hv, -, -, hp, -⟩
    · exact Or.inl ⟨hf, by rw [hd, ← hp, h2.2]; rfl⟩
    · exact Or.inr ⟨hf, by rw [hv, ← hp, h2.2]; rfl⟩
  have h3 : ((s.next i).dccmDc3 && (s.next i).lsc.pktDc3.store) = true →
      (i.freeze = true ∧ (s.dccmDc3 && s.lsc.pktDc3.store) = true) ∨
      (i.freeze = false ∧ (s.dccmDc2 && s.lsc.pktDc2.store) = true) := by
    intro h3
    rw [Bool.and_eq_true] at h3
    rcases next_dccmDc3 h.toShape h3.1 with ⟨hf, hd, hp, -⟩ | ⟨hf, hd, -, hp, -⟩
    · exact Or.inl ⟨hf, by rw [hd, ← hp, h3.2]; rfl⟩
    · exact Or.inr ⟨hf, by rw [hd, ← hp, h3.2]; rfl⟩
  have h1 : ((s.next i).lsc.pktDc1.valid && (s.next i).lsc.pktDc1.store) = true →
      (i.freeze = true ∧ (s.lsc.pktDc1.valid && s.lsc.pktDc1.store) = true) ∨
      (i.freeze = false ∧ (i.p.valid && i.p.store) = true) := by
    intro h1
    rw [Bool.and_eq_true] at h1
    rcases Lsc.of_next_validDc1 h.gated h1.1 with ⟨hf, hv, hp⟩ | ⟨hf, hv, -, hp⟩
    · exact Or.inl ⟨hf, by rw [hv, ← hp]; exact h1.2⟩
    · rw [lscIn_p] at hv hp
      exact Or.inr ⟨hf, by rw [hv, ← hp]; exact h1.2⟩
  have hpush : s.storeReqvldDc3 i = true → i.freeze = false ∧ (s.dccmDc3 && s.lsc.pktDc3.store) = true := by
    intro hst
    rw [h.storeReqvldDc3_eq] at hst
    simp only [Bool.and_eq_true, Bool.not_eq_true'] at hst ⊢
    exact ⟨hst.2, hst.1.1⟩
  -- an issued store finds room for itself behind all that are on their way
  have hissue : (i.p.valid && i.p.store) = true → (c ++ p5 ++ p4).length +
      (s.lsc.pktDc1.valid && s.lsc.pktDc1.store).toNat + (s.dccmDc2 && s.lsc.pktDc2.store).toNat +
      (s.dccmDc3 && s.lsc.pktDc3.store).toNat ≤ 6 := by
    intro hp
    rw [Bool.and_eq_true] at hp
    have hfull := (hi hp.1).2.2 hp.2
    unfold stbufFullAny Stbuf.fullAny Stbuf.specvldAny at hfull
    rw [h.queue.numvldAny_eq, decide_eq_false_iff_not] at hfull
    have hs1 : (s.lsc.pktDc1.valid && s.lsc.pktDc1.store).toNat ≤
        Stbuf.specvld (s.stbufIn i).isldstDc1 (Stbuf.dualDc1 (s.stbufIn i)) := by
      unfold Stbuf.specvld stbufIn
      cases s.lsc.pktDc1.valid <;> cases s.lsc.pktDc1.store <;> (simp; try (split_ifs <;> omega))
    have hs2 : (s.dccmDc2 && s.lsc.pktDc2.store).toNat ≤
        Stbuf.specvld (s.stbufIn i).dccmLdstDc2 s.stbuf.dualDc2 := by
      unfold Stbuf.specvld stbufIn dccmDc2
      cases hv : s.lsc.pktDc2.valid with
      | false => simp
      | true =>
        rw [(h.dc2 hv).inDccm_eq]
        cases inDccm s.lsc.addrDc2 <;> cases s.lsc.pktDc2.store <;> (simp; try (split_ifs <;> omega))
    have hs3 : (s.dccmDc3 && s.lsc.pktDc3.store).toNat ≤
        Stbuf.specvld (s.stbufIn i).dccmLdstDc3 s.stbuf.dualDc3 := by
      unfold Stbuf.specvld stbufIn dccmDc3
      cases hv : s.lsc.pktDc3.valid with
      | false => simp
      | true =>
        rw [(h.dc3 hv).inDccm_eq]
        cases inDccm s.lsc.addrDc3 <;> cases s.lsc.pktDc3.store <;> (simp; try (split_ifs <;> omega))
    have hle : ∀ a b : Bool, Stbuf.specvld a b ≤ 2 := by decide
    have := hle (s.stbufIn i).isldstDc1 (Stbuf.dualDc1 (s.stbufIn i))
    have := hle (s.stbufIn i).dccmLdstDc2 s.stbuf.dualDc2
    have := hle (s.stbufIn i).dccmLdstDc3 s.stbuf.dualDc3
    omega
  cases hf : i.freeze with
  | true =>
    simp only [hf, Bool.true_eq_false, false_and, or_false, true_and] at h1 h2 h3 hpush
    have := toNat_le_of_imp h1
    have := toNat_le_of_imp h2
    have := toNat_le_of_imp h3
    have hno : s.storeReqvldDc3 i = false := by simpa using hpush
    rw [hno, Bool.toNat_false] at hlen
    omega
  | false =>
    simp only [hf, Bool.false_eq_true, false_and, false_or, true_and] at h1 h2 h3 hpush
    have hle1 := toNat_le_of_imp h1
    have := toNat_le_of_imp h2
    have := toNat_le_of_imp h3
    have := toNat_le_of_imp hpush
    cases hp : i.p.valid && i.p.store with
    | false =>
      rw [hp, Bool.toNat_false] at hle1
      omega
    | true =>
      have := hissue hp
      have := Bool.toNat_le (i.p.valid && i.p.store)
      omega

/-- A cycle keeps the entries with the stores of the pipeline. -/
theorem Tracked.next (h : Tracked s c p5 p4) (he : s.Env i) :
    Tracked (s.next i) (nextPassed s i c p5) p4 (nextEntered s i) := by
  obtain ⟨hi, ha, hk⟩ := he
  have hreq4 : (s.next i).stbuf.reqvldDc4 = s.storeReqvldDc3 i := rfl
  have hreq5 : (s.next i).stbuf.reqvldDc5 = s.stbuf.reqvldDc4 := rfl
  have hdual4 : (s.next i).stbuf.dualWriteDc4 = s.stbuf.dualWriteDc3 (s.stbufIn i) := rfl
  refine ⟨h.toShape.next hi ha, h.queue_next, ?_, fun hv => ?_, fun _ => ?_, fun hr => h.dual4 hr, fun hr hv => ?_,
    fun e he => ?_, fun hv e he => ?_, h.room_next hi⟩
  · have hd4 : (s.next i).dccmDc4 = (s.lsc.pktDc3.valid && !i.flush.dc3 && !i.freeze && inDccm s.lsc.addrDc3) := rfl
    have hst : (s.next i).lsc.pktDc4.store = s.lsc.pktDc3.store := rfl
    rw [hreq4, h.storeReqvldDc3_eq, hd4, hst, dccmDc3]
    cases s.lsc.pktDc3.valid <;> cases s.lsc.pktDc3.store <;> cases i.flush.dc3 <;> cases i.freeze <;> simp
  · obtain ⟨hv4, -, hp⟩ := Lsc.of_next_validDc5 hv
    have hd5 : (s.next i).dccmDc5 = s.dccmDc4 := by
      unfold dccmDc5 dccmDc4
      rw [hv, hv4]
      rfl
    have hst : (s.next i).lsc.pktDc5.store = s.lsc.pktDc4.store := rfl
    rw [hreq5, hd5, hst, h.req4]
  · rw [hdual4, h.dualWriteDc3_eq]
  · -- the store in DC4 was killed in this cycle, and everything behind it
    rw [hreq5, h.req4, Bool.and_eq_true] at hr
    have hkill : i.flush.dc4 = true := by
      by_contra hf
      rw [Bool.not_eq_true] at hf
      have hv5 : (s.next i).lsc.pktDc5.valid = (s.lsc.pktDc4.valid && !i.flush.dc4) := rfl
      have hv4 : s.lsc.pktDc4.valid = true := (Bool.and_eq_true_iff.mp hr.1).1
      rw [hv5, hv4, hf] at hv
      cases hv
    exact clearsUp_next h.toShape (hk.2 hr.1 hkill)
  · unfold nextEntered at he
    cases hst : s.storeReqvldDc3 i with
    | false => simp [hst] at he
    | true =>
      rw [hst, if_pos rfl, List.mem_singleton] at he
      have hv4 : (s.next i).lsc.pktDc4.valid = true := by
        rw [h.storeReqvldDc3_eq] at hst
        simp only [Bool.and_eq_true, dccmDc3, Bool.not_eq_true'] at hst
        show (s.lsc.pktDc3.valid && !i.flush.dc3 && !i.freeze) = true
        rw [hst.1.1.1.1, hst.1.2, hst.2]
        rfl
      obtain ⟨-, -, -, hp⟩ := Lsc.of_next_validDc4 hv4
      have hp' : (s.next i).lsc.pktDc4 = s.lsc.pktDc3 := hp
      rw [he, h.newEntry_patch hst, hp']
      rfl
  · obtain ⟨-, -, hp⟩ := Lsc.of_next_validDc5 hv
    have hp' : (s.next i).lsc.pktDc5 = s.lsc.pktDc4 := hp
    rw [h.link4 e he, hp']
    rfl

end Track

/-! ## What younger accesses see -/

/-- What draining an entry writes and what its store means. -/
def pair (e : StbufEntry) : Overlay (BitVec 16) (BitVec 8) × Overlay (BitVec 16) (BitVec 8) := (e.wordPatch, e.patch)

/-- The entries that count for a younger access: the committed ones and those of DC5 and DC4. -/
def live (v5 : Bool) (c p5 p4 : List StbufEntry) : List StbufEntry :=
  c.filter (·.drainVld) ++ (if v5 then p5 else []) ++ p4

/-- The memory as an access behind DC4 sees it. -/
def view (s : LsuMem) (c p5 p4 : List StbufEntry) : BitVec 16 → BitVec 8 :=
  laidAll s.mem.byte ((live s.lsc.pktDc5.valid c p5 p4).map patch)

/-- The invariant: the banks hold the drained part of the history, every entry repeats what is below it outside
its own bytes, and each access on its way has the bytes it should see. -/
structure Refines (init : BitVec 16 → BitVec 8) (hist : List (Overlay (BitVec 16) (BitVec 8))) (s : LsuMem)
    (c p5 p4 : List StbufEntry) : Prop extends Tracked s c p5 p4 where
  drained : ∃ done, hist = done ++ (c.filter (·.drainVld)).map patch ∧ s.mem.byte = laidAll init done
  merged : AllRepeat s.mem.byte ((live s.lsc.pktDc5.valid c p5 p4).map pair)
  read2 : s.dccmDc2 = true → s.lsc.pktDc2.load = true ∨ s.lsc.pktDc2.word = false →
    ∀ b, sbWord (low s.lsc.addrDc2) = sbWord b → lane s.mem.rdDataLo (laneOf b) = s.mem.byte b
  read3 : s.dccmDc3 = true → s.lsc.pktDc3.load = true ∨ s.lsc.pktDc3.word = false →
    ∀ b, sbWord (low s.lsc.addrDc3) = sbWord b → lane s.rdataLoDc3 (laneOf b) = view s c p5 p4 b
  load4 : s.dccmDc4 = true → s.lsc.pktDc4.load = true →
    s.resultCorrDc4 = s.lsc.pktDc4.extend (flatWord (view s c p5 p4) (low s.lsc.addrDc4))
  load5 : s.dccmDc5 = true → s.lsc.pktDc5.load = true →
    s.resultDc5 = s.lsc.pktDc5.extend (flatWord (laidAll init hist) (low s.lsc.addrDc5))

section View

variable {c p5 p4 : List StbufEntry} {init : BitVec 16 → BitVec 8} {hist : List (Overlay (BitVec 16) (BitVec 8))}

/-- The entries that are committed after this cycle, before one may drain. -/
def passed (s : LsuMem) (i : LscIn) (c p5 : List StbufEntry) : List StbufEntry :=
  c.filter (·.drainVld) ++ if s.lsc.commitDc5 i then p5 else []

/-- What the entries mean are their patches. -/
theorem map_snd_pair (l : List StbufEntry) : (l.map pair).map Prod.snd = l.map patch := by
  rw [List.map_map]
  rfl

/-- The decision in DC5 changes a mark, not what the passed entries write and mean. -/
theorem Tracked.passed_map (h : Tracked s c p5 p4) :
    ((c ++ p5.map (mark (s.lsc.commitDc5 i))).filter (·.drainVld)).map pair = (passed s i c p5).map pair := by
  have hp5 : ∀ e ∈ p5, (mark (s.lsc.commitDc5 i) e).drainVld = s.lsc.commitDc5 i := by
    intro e he
    have hd := (h.queue.unmarked e (List.mem_append_left _ he)).1
    simp [mark, hd]
  unfold passed
  rw [List.filter_append, List.map_append, List.map_append]
  congr 1
  cases hc : s.lsc.commitDc5 i with
  | false =>
    rw [hc] at hp5
    have hnil : (p5.map (mark false)).filter (·.drainVld) = [] := by
      rw [List.filter_eq_nil_iff]
      intro e he
      obtain ⟨e', he', rfl⟩ := List.mem_map.mp he
      simp [hp5 e' he']
    rw [hnil]
    rfl
  | true =>
    rw [hc] at hp5
    have hall : (p5.map (mark true)).filter (·.drainVld) = p5.map (mark true) := by
      rw [List.filter_eq_self]
      intro e he
      obtain ⟨e', he', rfl⟩ := List.mem_map.mp he
      exact hp5 e' he'
    rw [hall, List.map_map]
    rfl

/-- What drains in this cycle goes from the committed entries to the banks. -/
theorem Tracked.drain_next (h : Tracked s c p5 p4) (hm : AllRepeat s.mem.byte ((passed s i c p5).map pair)) :
    ∃ popped : List StbufEntry,
      (passed s i c p5).map pair = popped.map pair ++ ((nextPassed s i c p5).filter (·.drainVld)).map pair ∧
      (s.next i).mem.byte = laidAll s.mem.byte (popped.map patch) := by
  have hkeep : s.stbufCommitAny i = false → (s.next i).mem.byte = s.mem.byte := fun hc =>
    DccmMem.byte_next_of_not_wren (Or.inr hc)
  cases hpop : s.stbuf.rdPtrEn (s.stbufIn i) with
  | false =>
    have hc : s.stbufCommitAny i = false := by
      unfold Stbuf.rdPtrEn at hpop
      rw [Bool.or_eq_false_iff] at hpop
      exact hpop.1
    refine ⟨[], ?_, hkeep hc⟩
    unfold nextPassed
    rw [hpop, Bool.toNat_false, List.drop_zero, List.map_nil, List.nil_append, h.passed_map]
  | true =>
    obtain ⟨e, c', rfl, hhead⟩ := h.queue.pop_cons reqvldAny_of_stbufCommitAny hpop
    have hrest : nextPassed s i (e :: c') p5 = c' ++ p5.map (mark (s.lsc.commitDc5 i)) := by
      unfold nextPassed
      rw [hpop]
      rfl
    have hmap := h.passed_map (i := i)
    have hmark := h.queue.marked e (List.mem_cons_self ..)
    rw [hrest]
    cases hd : e.drainVld with
    | false =>
      have hc : s.stbufCommitAny i = false := by
        by_contra hc
        rw [Bool.not_eq_false] at hc
        have := reqvldAny_of_stbufCommitAny hc
        unfold Stbuf.reqvldAny at this
        rw [hhead, hd] at this
        cases this
      refine ⟨[], ?_, hkeep hc⟩
      rw [List.cons_append, List.filter_cons_of_neg (by simp [hd])] at hmap
      rw [List.map_nil, List.nil_append, hmap]
    | true =>
      have hc : s.stbufCommitAny i = true := by
        unfold Stbuf.rdPtrEn Stbuf.reqvldFlushedAny at hpop
        have hfl : e.flushVld = false := by
          rw [hd] at hmark
          simpa using hmark
        rw [hhead, hfl, Bool.or_false] at hpop
        exact hpop
      have hf : i.freeze = false := by
        have hc' := hc
        unfold stbufCommitAny at hc'
        simp only [Bool.and_eq_true, Bool.not_eq_true'] at hc'
        exact hc'.1.2
      rw [List.cons_append, List.filter_cons_of_pos (by simp [hd]), List.map_cons] at hmap
      refine ⟨[e], hmap.symm, ?_⟩
      have hw : (s.next i).mem.byte = laid s.mem.byte e.wordPatch :=
        DccmMem.byte_next_of_wren hf hc (congrArg StbufEntry.addr hhead) (congrArg StbufEntry.data hhead)
      rw [← hmap, AllRepeat] at hm
      rw [hw]
      exact hm.1.eq

/-- The committed entries on top of the banks, before and after a drain. -/
theorem laidAll_drain {s' : LsuMem} {l : List StbufEntry} {popped : List StbufEntry}
    (hmap : (passed s i c p5).map pair = popped.map pair ++ l.map pair)
    (hbyte : s'.mem.byte = laidAll s.mem.byte (popped.map patch)) :
    laidAll s'.mem.byte (l.map patch) = laidAll s.mem.byte ((passed s i c p5).map patch) := by
  rw [hbyte, ← laidAll_append, ← map_snd_pair popped, ← map_snd_pair l, ← List.map_append, ← hmap, map_snd_pair]

/-- In a calm cycle the entry of DC5 counts before the cycle and is committed by it. -/
theorem Tracked.p5_of_calm (h : Tracked s c p5 p4) (hcalm : Calm s i) :
    (if s.lsc.commitDc5 i then p5 else []) = p5 ∧ (if s.lsc.pktDc5.valid then p5 else []) = p5 := by
  cases hr : s.stbuf.reqvldDc5 with
  | false =>
    rw [h.p5_eq_nil hr]
    exact ⟨ite_self _, ite_self _⟩
  | true => exact ⟨if_pos (h.commit_of_calm hcalm hr), if_pos (hcalm.live hr)⟩

/-- If no older store is killed, the passed entries and that of DC4 are all that count. -/
theorem Tracked.passed_of_calm (h : Tracked s c p5 p4) (hcalm : Calm s i) :
    passed s i c p5 ++ p4 = live s.lsc.pktDc5.valid c p5 p4 := by
  obtain ⟨h1, h2⟩ := h.p5_of_calm hcalm
  unfold passed live
  rw [h1, h2]

/-- In a calm cycle the entry of DC4 counts afterwards. -/
theorem Tracked.p4_of_calm (h : Tracked s c p5 p4) (hcalm : Calm s i) :
    (if (s.next i).lsc.pktDc5.valid then p4 else []) = p4 := by
  cases hr : s.stbuf.reqvldDc4 with
  | false =>
    rw [h.p4_eq_nil hr]
    exact ite_self _
  | true =>
    rw [h.req4, Bool.and_eq_true] at hr
    have hv4 : s.lsc.pktDc4.valid = true := (Bool.and_eq_true_iff.mp hr.1).1
    have hv5 : (s.next i).lsc.pktDc5.valid = (s.lsc.pktDc4.valid && !i.flush.dc4) := rfl
    rw [hv5, hv4, hcalm.dc4 hr.1]
    rfl

/-- In a calm cycle the memory a younger access sees is the one with the committed entries and that of DC4. -/
theorem Tracked.view_of_calm (h : Tracked s c p5 p4) (hcalm : Calm s i) :
    view s c p5 p4 = laidAll (laidAll s.mem.byte ((passed s i c p5).map patch)) (p4.map patch) := by
  unfold view
  rw [← h.passed_of_calm hcalm, List.map_append, laidAll_append]

/-- The committed entries come first among those that count. -/
theorem Refines.merged_passed (h : Refines init hist s c p5 p4) (i : LscIn) :
    AllRepeat s.mem.byte ((passed s i c p5).map pair) := by
  have hm := h.merged
  unfold live at hm
  rw [List.map_append, List.map_append, allRepeat_append, allRepeat_append] at hm
  unfold passed
  cases hc : s.lsc.commitDc5 i with
  | false => simpa using hm.1.1
  | true =>
    cases hr : s.stbuf.reqvldDc5 with
    | false =>
      rw [h.p5_eq_nil hr]
      simpa using hm.1.1
    | true =>
      rw [(h.dc5_of_commit hr hc).1] at hm
      rw [List.map_append, allRepeat_append]
      simpa using hm.1

/-- In a calm cycle a younger access sees the same memory afterwards, and the store that left DC3 on top. -/
theorem Refines.view_next (h : Refines init hist s c p5 p4) (hcalm : Calm s i) :
    view (s.next i) (nextPassed s i c p5) p4 (nextEntered s i) =
      laidAll (view s c p5 p4) ((nextEntered s i).map patch) := by
  obtain ⟨popped, hmap, hbyte⟩ := h.drain_next (h.merged_passed i)
  rw [h.view_of_calm hcalm, view, live, h.p4_of_calm hcalm, List.map_append, List.map_append, laidAll_append,
    laidAll_append, laidAll_drain hmap hbyte]

/-- The entry of a store repeats what a younger access sees, outside its own bytes. -/
theorem Refines.newEntry_repeats (h : Refines init hist s c p5 p4) (hst : s.storeReqvldDc3 i = true) :
    Repeats (view s c p5 p4) (Stbuf.newEntry (s.stbufIn i)).wordPatch (Stbuf.newEntry (s.stbufIn i)).patch := by
  have hst' := hst
  rw [h.storeReqvldDc3_eq] at hst'
  simp only [Bool.and_eq_true] at hst'
  have h3 : s.dccmDc3 = true := hst'.1.1.1
  obtain ⟨hv, hd⟩ := Bool.and_eq_true_iff.mp h3
  have hgood := (h.dc3 hv).toGood
  have hal := mod_size_of_isAligned hgood.one (hgood.aligned hd)
  intro b
  have hl := laneOf_lt b
  have hen := byteenLo_getLsbD hgood.one (low s.lsc.addrDc3) hl
  by_cases hw : sbWord (low s.lsc.addrDc3) = sbWord b
  · by_cases hcov : (s.lsc.pktDc3.byteenLo (low s.lsc.addrDc3)).getLsbD (laneOf b) = true
    · have hpatch : (Stbuf.newEntry (s.stbufIn i)).patch b = some (lane (s.datafnLoDc3 i) (laneOf b)) :=
        if_pos ⟨hw, hcov⟩
      have hword : (Stbuf.newEntry (s.stbufIn i)).wordPatch b = some (lane (s.datafnLoDc3 i) (laneOf b)) := if_pos hw
      rw [laid_of_some hpatch, laid_of_some hword]
    · have hnone : (Stbuf.newEntry (s.stbufIn i)).patch b = none := if_neg fun hc => hcov hc.2
      have hsome : (Stbuf.newEntry (s.stbufIn i)).wordPatch b = some (lane (s.datafnLoDc3 i) (laneOf b)) := if_pos hw
      have hword : s.lsc.pktDc3.word = false := by
        -- a word store covers every lane
        obtain ⟨-, -, hw', -⟩ | ⟨-, -, hw', -⟩ | ⟨-, -, -, hs⟩ := OneSize_cases hgood.one
        · exact hw'
        · exact hw'
        · rw [hen, decide_eq_true_eq, hs] at hcov
          rw [hs] at hal
          rw [laneOf_eq (low s.lsc.addrDc3)] at hcov
          omega
      have hext : s.storeByteenExtDc3.extractLsb' 0 4 = s.lsc.pktDc3.byteenLo (low s.lsc.addrDc3) := by
        unfold storeByteenExtDc3
        rw [hst'.1.1.2]
        rfl
      have hdata : lane (s.datafnLoDc3 i) (laneOf b) = lane s.rdataLoDc3 (laneOf b) := by
        unfold datafnLoDc3 rdataLoDc3
        rw [lane_ofLanes _ hl, lane_ofLanes _ hl, hext, if_neg hcov]
      rw [laid_of_some hsome, laid_of_none hnone, hdata, h.read3 h3 (Or.inr hword) b hw]
  · have hnone : (Stbuf.newEntry (s.stbufIn i)).patch b = none := if_neg fun hc => hw hc.1
    have hnone' : (Stbuf.newEntry (s.stbufIn i)).wordPatch b = none := if_neg hw
    rw [laid_of_none hnone, laid_of_none hnone']

/-- After a cycle every entry still repeats what is below it outside its own bytes. -/
theorem Refines.merged_next (h : Refines init hist s c p5 p4) (hk : s.KillsYounger i) :
    AllRepeat (s.next i).mem.byte
      ((live (s.next i).lsc.pktDc5.valid (nextPassed s i c p5) p4 (nextEntered s i)).map pair) := by
  have hpassed := h.merged_passed i
  obtain ⟨popped, hmap, hbyte⟩ := h.drain_next hpassed
  have hlaid := laidAll_drain hmap hbyte
  have hrest : AllRepeat (s.next i).mem.byte (((nextPassed s i c p5).filter (·.drainVld)).map pair) := by
    rw [hmap, allRepeat_append, map_snd_pair, ← hbyte] at hpassed
    exact hpassed.2
  have hsplit : ∀ hcalm : Calm s i,
      AllRepeat (laidAll s.mem.byte ((passed s i c p5).map patch)) (p4.map pair) := fun hcalm => by
    have hm := h.merged
    rw [← h.passed_of_calm hcalm, List.map_append, allRepeat_append, map_snd_pair] at hm
    exact hm.2
  unfold live
  rw [List.map_append, List.map_append, allRepeat_append, allRepeat_append, map_snd_pair, hlaid]
  refine ⟨⟨hrest, ?_⟩, ?_⟩
  · cases hv : (s.next i).lsc.pktDc5.valid with
    | false => exact trivial
    | true =>
      cases hr : s.stbuf.reqvldDc4 with
      | false =>
        rw [h.p4_eq_nil hr]
        exact trivial
      | true =>
        obtain ⟨-, hfl, -⟩ := Lsc.of_next_validDc5 hv
        rw [h.req4, Bool.and_eq_true] at hr
        exact hsplit (h.calm_of_dc4 hk hr.1 hfl)
  · unfold nextEntered
    cases hst : s.storeReqvldDc3 i with
    | false => exact trivial
    | true =>
      have hst' := hst
      rw [h.storeReqvldDc3_eq] at hst'
      simp only [Bool.and_eq_true, Bool.not_eq_true'] at hst'
      have hcalm := h.calm_of_dc3 hk hst'.1.1.1 (Or.inl hst'.1.2)
      refine ⟨?_, trivial⟩
      rw [← List.map_append, map_snd_pair, List.map_append, h.p4_of_calm hcalm, laidAll_append, hlaid,
        ← h.view_of_calm hcalm]
      exact h.newEntry_repeats hst

/-- After a cycle the banks hold the part of the history whose entries have drained. -/
theorem Refines.drained_next (h : Refines init hist s c p5 p4) :
    ∃ done, hist ++ s.committed i = done ++ ((nextPassed s i c p5).filter (·.drainVld)).map patch ∧
      (s.next i).mem.byte = laidAll init done := by
  obtain ⟨done, hhist, hmem⟩ := h.drained
  obtain ⟨popped, hmap, hbyte⟩ := h.drain_next (h.merged_passed i)
  refine ⟨done ++ popped.map patch, ?_, by rw [laidAll_append, ← hmem, hbyte]⟩
  have hpatch : (passed s i c p5).map patch =
      popped.map patch ++ ((nextPassed s i c p5).filter (·.drainVld)).map patch := by
    rw [← map_snd_pair, hmap, List.map_append, map_snd_pair, map_snd_pair]
  rw [h.committed_eq, hhist, List.append_assoc, List.append_assoc, ← hpatch, passed, List.map_append]
  cases s.lsc.commitDc5 i <;> rfl

/-- The bytes below the committed entries are the committed history. -/
theorem Refines.laidAll_hist (h : Refines init hist s c p5 p4) :
    laidAll s.mem.byte ((c.filter (·.drainVld)).map patch) = laidAll init hist := by
  obtain ⟨done, hhist, hmem⟩ := h.drained
  rw [hhist, hmem, ← laidAll_append]

/-- An access that reads its bank keeps that bank from being drained to. -/
theorem byte_next_of_rden (hr : s.rdenDc1 i = true) {b : BitVec 16}
    (hb : sbWord (low (s.lsc.addrDc1 (s.lscIn i))) = sbWord b) : (s.next i).mem.byte b = s.mem.byte b := by
  cases hc : s.stbufCommitAny i with
  | false => rw [show (s.next i).mem.byte = s.mem.byte from DccmMem.byte_next_of_not_wren (Or.inr hc)]
  | true =>
    have hc' := hc
    unfold stbufCommitAny at hc'
    rw [hr] at hc'
    simp only [Bool.not_true, Bool.false_or, Bool.and_eq_true, Bool.not_eq_true', Bool.or_eq_false_iff,
      beq_eq_false_iff_ne] at hc'
    have hw : (s.next i).mem.byte = laid s.mem.byte (s.stbuf.entry s.stbuf.rdPtr).wordPatch :=
      DccmMem.byte_next_of_wren hc'.1.2 hc rfl rfl
    rw [hw]
    refine laid_of_none (if_neg fun heq => hc'.2.1 ?_)
    exact (bank_row_eq_iff.mpr (heq.trans hb.symm)).1

/-- The word read for an access in DC2 has the bytes the banks hold. -/
theorem Refines.read2_next (h : Refines init hist s c p5 p4) (ha : s.AlignedDc1 i)
    (h2 : (s.next i).dccmDc2 = true)
    (hneeds : (s.next i).lsc.pktDc2.load = true ∨ (s.next i).lsc.pktDc2.word = false) {b : BitVec 16}
    (hb : sbWord (low (s.next i).lsc.addrDc2) = sbWord b) :
    lane (s.next i).mem.rdDataLo (laneOf b) = (s.next i).mem.byte b := by
  rcases next_dccmDc2 h.toShape h2 with ⟨hf, h2', hp, haddr⟩ | ⟨hf, hv, -, hd, hp, haddr⟩
  · have hbyte : (s.next i).mem.byte = s.mem.byte := DccmMem.byte_next_of_not_wren (Or.inl hf)
    have hread : (s.next i).mem.rdDataLo = s.mem.rdDataLo := DccmMem.rdDataLo_next_of_freeze hf
    rw [hp] at hneeds
    rw [haddr] at hb
    rw [hbyte, hread]
    exact h.read2 h2' hneeds b hb
  · rw [hp] at hneeds
    rw [haddr] at hb
    obtain ⟨hone, hkind⟩ := h.dc1 hv
    have hin := (Lsc.addrInDccmDc1_of_isAligned hone (ha hv hd)).1
    have hr : s.rdenDc1 i = true := by
      unfold rdenDc1
      rw [hv, hin, hd]
      rcases hneeds with hl | hw
      · simp [hl]
      · rw [hw, hkind]
        cases s.lsc.pktDc1.store <;> simp
    have hread : lane (s.next i).mem.rdDataLo (laneOf b) = s.mem.byte b :=
      DccmMem.rdDataLo_next_of_rden (i := s.memIn i) hf (by simp [memIn, hr, hin, hd]) hb
    rw [hread, byte_next_of_rden hr hb]

/-- The bytes that reach DC3: what the store leaving DC3 puts over the memory a younger access sees. -/
theorem Refines.forward_eq (h : Refines init hist s c p5 p4) (hcalm : Calm s i) (h2 : s.dccmDc2 = true)
    {b : BitVec 16} (hb : sbWord (low s.lsc.addrDc2) = sbWord b)
    (hread : lane s.mem.rdDataLo (laneOf b) = s.mem.byte b) :
    (if (s.stbuf.fwdbyteenFnDc2 (s.stbufIn i) (low s.lsc.addrDc2)).getLsbD (laneOf b) then
        lane (s.stbuf.fwddataFnDc2 (s.stbufIn i) (low s.lsc.addrDc2)) (laneOf b)
      else lane s.mem.rdDataLo (laneOf b)) =
      laidAll (view s c p5 p4) ((nextEntered s i).map patch) b := by
  have hl := laneOf_lt b
  obtain ⟨hv, hd⟩ := Bool.and_eq_true_iff.mp h2
  have hin2 : s.lsc.addrInDccmDc2 = true := by rw [(h.dc2 hv).inDccm_eq, hd]
  -- no store crosses a word, so nothing comes from a second word
  have hhi : s.stbuf.jitHi (s.stbufIn i) (low s.lsc.addrDc2) (laneOf b) = false := by
    unfold Stbuf.jitHi
    rw [h.dualWriteDc3_eq, Bool.and_false]
  -- the entries that are not dropped are those that count
  have hlive : ((c ++ p5 ++ p4).filter fun e => !e.flushVld) = live s.lsc.pktDc5.valid c p5 p4 := by
    have hc : (c.filter fun e => !e.flushVld) = c.filter (·.drainVld) :=
      List.filter_congr fun e he => (h.queue.marked e he).symm
    have h5 : (p5.filter fun e => !e.flushVld) = p5 := by
      rw [List.filter_eq_self]
      intro e he
      simp [(h.queue.unmarked e (List.mem_append_left _ he)).2]
    have h4 : (p4.filter fun e => !e.flushVld) = p4 := by
      rw [List.filter_eq_self]
      intro e he
      simp [(h.queue.unmarked e (List.mem_append_right _ he)).2]
    unfold live
    rw [List.filter_append, List.filter_append, hc, h5, h4, (h.p5_of_calm hcalm).2]
  have hbuf := h.queue.fwd_eq (i := s.stbufIn i) hin2 hb s.mem.byte
  rw [hlive] at hbuf
  have hview : laidAll s.mem.byte ((live s.lsc.pktDc5.valid c p5 p4).map patch) b = view s c p5 p4 b := rfl
  rw [hview] at hbuf
  unfold Stbuf.fwdbyteenFnDc2 Stbuf.fwddataFnDc2
  rw [getLsbD_ofEnables _ hl, lane_ofLanes _ hl, hhi, Bool.false_or, hread]
  have hjit : Stbuf.jitLo (s.stbufIn i) (low s.lsc.addrDc2) (laneOf b) = true ↔ s.storeReqvldDc3 i = true ∧
      sbWord (low s.lsc.addrDc3) = sbWord b ∧
      (s.lsc.pktDc3.byteenLo (low s.lsc.addrDc3)).getLsbD (laneOf b) = true := by
    unfold Stbuf.jitLo Stbuf.jitInSameRegion
    have hin3 : s.storeReqvldDc3 i = true → s.lsc.addrInDccmDc3 = true := by
      intro hst
      unfold storeReqvldDc3 at hst
      simp only [Bool.and_eq_true] at hst
      exact hst.1.1.2
    simp only [Bool.and_eq_true, beq_iff_eq, ← hb]
    constructor
    · rintro ⟨⟨⟨hw, -⟩, hen⟩, hst⟩
      exact ⟨hst, hw, hen⟩
    · rintro ⟨hst, hw, hen⟩
      exact ⟨⟨⟨hw, hin2, hin3 hst⟩, hen⟩, hst⟩
  by_cases hj : Stbuf.jitLo (s.stbufIn i) (low s.lsc.addrDc2) (laneOf b) = true
  · obtain ⟨hst, hw, hen⟩ := hjit.mp hj
    have hpatch : (Stbuf.newEntry (s.stbufIn i)).patch b = some (lane (s.datafnLoDc3 i) (laneOf b)) :=
      if_pos ⟨hw, hen⟩
    have hnew : nextEntered s i = [Stbuf.newEntry (s.stbufIn i)] := if_pos hst
    rw [hj, hnew, List.map_singleton, laidAll_singleton, laid_of_some hpatch]
    simp [stbufIn]
  · have hskip : laidAll (view s c p5 p4) ((nextEntered s i).map patch) b = view s c p5 p4 b := by
      unfold nextEntered
      cases hst : s.storeReqvldDc3 i with
      | false => rfl
      | true => exact laid_of_none (if_neg fun hc => hj (hjit.mpr ⟨hst, hc.1, hc.2⟩))
    rw [Bool.not_eq_true] at hj
    rw [hskip, hj, ← hbuf]
    simp

/-- The word of an access in DC3 has the bytes an access behind DC4 sees. -/
theorem Refines.read3_next (h : Refines init hist s c p5 p4) (hk : s.KillsYounger i)
    (h3 : (s.next i).dccmDc3 = true)
    (hneeds : (s.next i).lsc.pktDc3.load = true ∨ (s.next i).lsc.pktDc3.word = false) {b : BitVec 16}
    (hb : sbWord (low (s.next i).lsc.addrDc3) = sbWord b) :
    lane (s.next i).rdataLoDc3 (laneOf b) =
      view (s.next i) (nextPassed s i c p5) p4 (nextEntered s i) b := by
  have hl := laneOf_lt b
  rcases next_dccmDc3 h.toShape h3 with ⟨hf, h3', hp, haddr⟩ | ⟨hf, h2, hfl, hp, haddr⟩
  · have hcalm := h.calm_of_dc3 hk h3' (Or.inr hf)
    have hnew : nextEntered s i = [] := by
      unfold nextEntered storeReqvldDc3
      simp [hf]
    have hsame : (s.next i).rdataLoDc3 = s.rdataLoDc3 := by
      unfold rdataLoDc3
      simp [LsuMem.next, Stbuf.next, stbufIn, Lsc.freezeC1Dc3Clken, Lsc.freezeC1Clken_freeze hf, dccmC1Dc3Clken, hf]
    rw [hp] at hneeds
    rw [haddr] at hb
    rw [h.view_next hcalm, hnew, hsame]
    exact h.read3 h3' hneeds b hb
  · have hcalm := h.calm_of_dc2 hk h2 (Or.inl hfl)
    rw [hp] at hneeds
    rw [haddr] at hb
    obtain ⟨hv, hd⟩ := Bool.and_eq_true_iff.mp h2
    have hclk : s.lsc.freezeC1Dc3Clken i = true := by
      unfold Lsc.freezeC1Dc3Clken
      rw [hv, Lsc.freezeC1Clken_valid hf]
    have hdclk : s.dccmC1Dc3Clken i = true := by
      unfold dccmC1Dc3Clken Lsc.c1Dc3Clken
      rw [hv, (h.dc2 hv).inDccm_eq, hd, hf]
      rfl
    have hlane : lane (s.next i).rdataLoDc3 (laneOf b) =
        if (s.stbuf.fwdbyteenFnDc2 (s.stbufIn i) (low s.lsc.addrDc2)).getLsbD (laneOf b) then
          lane (s.stbuf.fwddataFnDc2 (s.stbufIn i) (low s.lsc.addrDc2)) (laneOf b)
        else lane s.mem.rdDataLo (laneOf b) := by
      unfold rdataLoDc3
      rw [lane_ofLanes _ hl]
      simp [LsuMem.next, Stbuf.next, stbufIn, hclk, hdclk]
    rw [hlane, h.view_next hcalm, h.forward_eq hcalm h2 hb (h.read2 h2 hneeds b hb)]

/-- A load in DC4 has its value of the memory that an access behind DC4 sees. -/
theorem Refines.load4_next (h : Refines init hist s c p5 p4) (hk : s.KillsYounger i)
    (h4 : (s.next i).dccmDc4 = true) (hload : (s.next i).lsc.pktDc4.load = true) :
    (s.next i).resultCorrDc4 = (s.next i).lsc.pktDc4.extend
      (flatWord (view (s.next i) (nextPassed s i c p5) p4 (nextEntered s i)) (low (s.next i).lsc.addrDc4)) := by
  obtain ⟨hf, h3, hfl, hp⟩ := next_dccmDc4 h4
  have hcalm := h.calm_of_dc3 hk h3 (Or.inl hfl)
  obtain ⟨hv, hd⟩ := Bool.and_eq_true_iff.mp h3
  have hgood := h.dc3 hv
  rw [hp] at hload ⊢
  have hnew : nextEntered s i = [] := by
    have hkind := hgood.kind
    rw [hload] at hkind
    unfold nextEntered storeReqvldDc3
    cases hst : s.lsc.pktDc3.store with
    | false => simp
    | true => simp [hst] at hkind
  rw [h.view_next hcalm, hnew]
  show s.lsc.pktDc3.extend (if s.lsc.addrExternalDc3 then _ else s.ldDataDc3) = _
  rw [hgood.external hd]
  exact extend_of_lanes hgood.one (mod_size_of_isAligned hgood.one (hgood.aligned hd)) (h.read3 h3 (Or.inl hload))

/-- A load in DC5 has its value of the memory in which all older stores are laid. -/
theorem Refines.load5_next (h : Refines init hist s c p5 p4) (hk : s.KillsYounger i)
    (h5 : (s.next i).dccmDc5 = true) (hload : (s.next i).lsc.pktDc5.load = true) :
    (s.next i).resultDc5 = (s.next i).lsc.pktDc5.extend
      (flatWord (laidAll init (hist ++ s.committed i)) (low (s.next i).lsc.addrDc5)) := by
  obtain ⟨h4, hfl, hp⟩ := next_dccmDc5 h5
  have hcalm := h.calm_of_dc4 hk h4 hfl
  obtain ⟨hv, hd⟩ := Bool.and_eq_true_iff.mp h4
  rw [hp] at hload ⊢
  have hp4 : p4 = [] := by
    have hkind := (h.dc4 hv).kind
    refine h.p4_eq_nil ?_
    rw [h.req4]
    cases hst : s.lsc.pktDc4.store with
    | false => simp
    | true => simp [hload, hst] at hkind
  have hview : laidAll init (hist ++ s.committed i) = view s c p5 p4 := by
    rw [h.view_of_calm hcalm, hp4, laidAll_append, ← h.laidAll_hist, h.committed_eq, passed, List.map_append, laidAll_append]
    cases s.lsc.commitDc5 i <;> rfl
  rw [hview]
  exact h.load4 h4 hload

/-- A cycle keeps the invariant, and the store that commits joins the history. -/
theorem Refines.next (h : Refines init hist s c p5 p4) (he : s.Env i) :
    Refines init (hist ++ s.committed i) (s.next i) (nextPassed s i c p5) p4 (nextEntered s i) :=
  ⟨h.toTracked.next he, h.drained_next, h.merged_next he.2.2, fun h2 hn _ hb => h.read2_next he.2.1 h2 hn hb,
    fun h3 hn _ hb => h.read3_next he.2.2 h3 hn hb, fun h4 hl => h.load4_next he.2.2 h4 hl,
    fun h5 hl => h.load5_next he.2.2 h5 hl⟩

/-- The entry that drains is committed and comes first. -/
theorem Tracked.drain_head (h : Tracked s c p5 p4) (hc : s.stbufCommitAny i = true) :
    ∃ c', c = s.stbuf.entry s.stbuf.rdPtr :: c' ∧ (s.stbuf.entry s.stbuf.rdPtr).drainVld = true := by
  have hpop : s.stbuf.rdPtrEn (s.stbufIn i) = true := by
    unfold Stbuf.rdPtrEn
    rw [Bool.or_eq_true]
    exact Or.inl hc
  obtain ⟨e, c', hcons, hhead⟩ := h.queue.pop_cons reqvldAny_of_stbufCommitAny hpop
  rw [← hhead] at hcons
  exact ⟨c', hcons, reqvldAny_of_stbufCommitAny hc⟩

/-- An entry that drains is a store of the history. -/
theorem Refines.drained_mem (h : Refines init hist s c p5 p4) (hc : s.stbufCommitAny i = true) :
    (s.stbuf.entry s.stbuf.rdPtr).patch ∈ hist := by
  obtain ⟨done, hhist, -⟩ := h.drained
  obtain ⟨c', hcons, hd⟩ := h.drain_head hc
  rw [hhist, hcons]
  refine List.mem_append_right _ (List.mem_map_of_mem ?_)
  rw [List.mem_filter]
  exact ⟨List.mem_cons_self .., hd⟩

/-- A drain writes the bytes of its own store only. -/
theorem Refines.drain_own_bytes (h : Refines init hist s c p5 p4) (hc : s.stbufCommitAny i = true) :
    (s.next i).mem.byte = laid s.mem.byte (s.stbuf.entry s.stbuf.rdPtr).patch := by
  obtain ⟨c', hcons, hd⟩ := h.drain_head hc
  have hf : i.freeze = false := by
    have hc' := hc
    unfold stbufCommitAny at hc'
    simp only [Bool.and_eq_true, Bool.not_eq_true'] at hc'
    exact hc'.1.2
  have hm := h.merged_passed i
  unfold passed at hm
  rw [hcons, List.filter_cons_of_pos (by simpa using hd), List.cons_append, List.map_cons, AllRepeat] at hm
  have hown : laid s.mem.byte (s.stbuf.entry s.stbuf.rdPtr).wordPatch =
      laid s.mem.byte (s.stbuf.entry s.stbuf.rdPtr).patch := hm.1.eq
  rw [← hown]
  exact DccmMem.byte_next_of_wren hf hc rfl rfl

end View

/-! ## Whole runs -/

/-- The stores committed in the first `n` cycles of a run, oldest first. -/
def history (m : DccmMem) (w : Nat → LscIn) (n : Nat) : List (Overlay (BitVec 16) (BitVec 8)) :=
  (machine m).events committed w n

theorem refines_reset (m : DccmMem) : Refines m.byte [] { mem := m } [] [] [] where
  gated := Lsc.gated_reset
  dc1 := nofun
  dc2 := nofun
  dc3 := nofun
  dc4 := nofun
  dc5 := nofun
  queue := ⟨⟨by simp, fun _ hn => absurd hn (Nat.not_lt_zero _), fun _ _ => ⟨rfl, rfl, rfl⟩⟩, nofun, nofun, nofun,
    ⟨rfl, nofun⟩, ⟨rfl, nofun⟩⟩
  req4 := rfl
  req5 := nofun
  dual4 := nofun
  dual5 := nofun
  doomed := nofun
  link4 := nofun
  link5 := nofun
  room := Nat.zero_le 7
  drained := ⟨[], rfl, rfl⟩
  merged := trivial
  read2 := nofun
  read3 := nofun
  load4 := nofun
  load5 := nofun

/-- The invariant over whole runs. -/
theorem refines_run {m : DccmMem} {w : Nat → LscIn} (hw : (machine m).Respects Env w) (n : Nat) :
    ∃ c p5 p4, Refines m.byte (history m w n) ((machine m).run w n) c p5 p4 := by
  induction n with
  | zero => exact ⟨[], [], [], refines_reset m⟩
  | succ n ih =>
    obtain ⟨c, p5, p4, h⟩ := ih
    exact ⟨_, _, _, h.next (hw n)⟩

end LsuMem

end SocRV
