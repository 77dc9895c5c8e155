import SocRV.Core.Flush

/-!
# The load/store unit and decode in step

The load/store unit moves its packet through DC1 to DC5 with flush lines and enables of its own.  It still holds, stage
by stage, the access of the pair decode has in the same stage, with the slot it was issued from.  The two differ in
one place: a flush of the lower pipeline removes the access on its way to DC2 at once and the pair one stage later.
-/

namespace SocRV

/-- A packet with its slot bit moves to a register, or holds in it, unless it is killed by `k`. -/
structure Moves (p : LsuPkt) (v k : Bool) (p' : LsuPkt) (v' : Bool) : Prop where
  valid : p'.valid = (p.valid && !k)
  same : p'.valid = true → p' = p ∧ v' = v

/-- The packet of the load/store unit is that of the load or store of the pair, and `i0Valid` tells its slot. -/
structure Agrees (d : DestPkt) (p : LsuPkt) (i0Valid : Bool) : Prop where
  valid : p.valid = (d.lsu0 || d.lsu1)
  alone : d.lsu0 = true → d.lsu1 = false
  slot : p.valid = true → i0Valid = d.lsu0
  tag : p.valid = true → p.tag = d.seq
  store : p.valid = true → p.store = if d.lsu0 then d.i0store else d.i1store

namespace Agrees

open DestPkt

variable {d d' : DestPkt} {p p' : LsuPkt} {v v' : Bool}

/-- No access and no live pair agree. -/
theorem empty (hp : p.valid = false) (hd : d.live = false) : Agrees d p v := by
  obtain ⟨h0, h1⟩ := valid_of_not_live hd
  have hno : ∀ {q : Prop}, p.valid = true → q := fun h => by
    rw [hp] at h
    cases h
  exact ⟨by simp [hp, lsu0, lsu1, h0, h1], fun _ => by simp [lsu1, h1], hno, hno, hno⟩

/-- A stage register agrees as its input does. -/
theorem of_same (h : Agrees d' p v) (hs : Same d d') : Agrees d p v := by
  rcases hs with rfl | ⟨hd, hd'⟩
  · exact h
  · refine empty ?_ hd
    obtain ⟨h0, h1⟩ := valid_of_not_live hd'
    simp [h.valid, lsu0, lsu1, h0, h1]

/-- Both sides move on to the next stage, with the pair's slots killed by `k0` and `k1` and the access by `k`. -/
theorem move {k0 k1 k : Bool} (h : Agrees d p v) (h0 : d.lsu0 = true → k0 = k) (h1 : d.lsu1 = true → k1 = k)
    (hm : Moves p v k p' v') : Agrees (d.kill k0 k1) p' v' := by
  have hkill : p'.valid = ((d.kill k0 k1).lsu0 || (d.kill k0 k1).lsu1) := by
    rw [hm.valid, h.valid, kill_lsu0, kill_lsu1]
    cases hl0 : d.lsu0 with
    | true => simp [h.alone hl0, h0 hl0]
    | false =>
      cases hl1 : d.lsu1 with
      | true => simp [h1 hl1]
      | false => rfl
  -- a packet that is still valid was not killed, so its fields are those of the pair
  have hlive : p'.valid = true → k = false ∧ p.valid = true := fun hv' => by
    rw [hm.valid, Bool.and_eq_true, Bool.not_eq_true'] at hv'
    exact hv'.symm
  have hsame : p'.valid = true → (d.kill k0 k1).lsu0 = d.lsu0 := fun hv' => by
    rw [kill_lsu0]
    cases hl0 : d.lsu0 with
    | false => rfl
    | true => simp [h0 hl0, (hlive hv').1]
  refine ⟨hkill, fun hl0 => ?_, fun hv' => ?_, fun hv' => ?_, fun hv' => ?_⟩
  · rw [kill_lsu0, Bool.and_eq_true] at hl0
    rw [kill_lsu1, h.alone hl0.1, Bool.false_and]
  · rw [(hm.same hv').2, h.slot (hlive hv').2, hsame hv']
  · rw [(hm.same hv').1, h.tag (hlive hv').2]
    rfl
  · rw [(hm.same hv').1, h.store (hlive hv').2, hsame hv']
    rfl

/-- What agrees in a stage still agrees when the stage holds. -/
theorem hold (h : Agrees d p v) (hm : Moves p v false p' v') : Agrees d p' v' := by
  have hmove : Agrees (d.kill false false) p' v' := h.move (fun _ => rfl) (fun _ => rfl) hm
  rwa [kill_false] at hmove

end Agrees

/-! ## The packets of the load/store unit -/

namespace Lsc

variable {s : Lsc} {i : LscIn}

/-- The registers of a stage up to DC3 hold in a frozen cycle. -/
theorem holds_stage {p dout : LsuPkt} {q v vout flush : Bool} (hf : i.freeze = true) :
    Moves dout vout false
      (pktReg (freezeC1Clken i p.valid) (freezeC2Clken i (freezeC1Clken i p.valid) q) p (p.valid && !flush) dout)
      (rvdffs (freezeC2Clken i (freezeC1Clken i p.valid) q) v vout) := by
  simp only [freezeC2Clken, freezeC1Clken, hf, Bool.not_true, Bool.and_false, rvdffs_false, pktReg]
  exact ⟨(Bool.and_true _).symm, fun _ => ⟨rfl, rfl⟩⟩

/-- Otherwise they take the packet before, unless it is flushed. -/
theorem moves_stage {p dout : LsuPkt} {q v vout flush : Bool} (hf : i.freeze = false)
    (hg : dout.valid = true → q = true) :
    Moves p v flush
      (pktReg (freezeC1Clken i p.valid) (freezeC2Clken i (freezeC1Clken i p.valid) q) p (p.valid && !flush) dout)
      (rvdffs (freezeC2Clken i (freezeC1Clken i p.valid) q) v vout) := by
  have hvalid : rvdffs (freezeC2Clken i (freezeC1Clken i p.valid) q) (p.valid && !flush) dout.valid = _ :=
    gatedValid flush hg
  rw [hf] at hvalid
  refine ⟨hvalid, fun hv => ?_⟩
  have hp : p.valid = true := (Bool.and_eq_true_iff.mp (hvalid.symm.trans hv)).1
  simp only [pktReg] at hv ⊢
  rw [hv, hp]
  simp only [freezeC2Clken, freezeC1Clken, hf, Bool.true_or, Bool.not_false, Bool.and_true, rvdffs_true]
  exact ⟨by rw [← hp], trivial⟩

theorem holds_dc1 (hf : i.freeze = true) :
    Moves s.pktDc1 s.i0ValidDc1 false (s.next i).pktDc1 (s.next i).i0ValidDc1 := holds_stage hf

theorem holds_dc2 (hf : i.freeze = true) :
    Moves s.pktDc2 s.i0ValidDc2 false (s.next i).pktDc2 (s.next i).i0ValidDc2 := holds_stage hf

theorem holds_dc3 (hf : i.freeze = true) :
    Moves s.pktDc3 s.i0ValidDc3 false (s.next i).pktDc3 (s.next i).i0ValidDc3 := holds_stage hf

/-- Without a freeze DC1 takes the packet of decode. -/
theorem moves_dc1 (h : Gated s) (hf : i.freeze = false) :
    Moves i.p i.i0LsuDecodeD i.flush.dc2Up (s.next i).pktDc1 (s.next i).i0ValidDc1 := moves_stage hf h.dc1

theorem moves_dc2 (h : Gated s) (hf : i.freeze = false) :
    Moves s.pktDc1 s.i0ValidDc1 i.flush.dc2Up (s.next i).pktDc2 (s.next i).i0ValidDc2 := moves_stage hf h.dc2

theorem moves_dc3 (h : Gated s) (hf : i.freeze = false) :
    Moves s.pktDc2 s.i0ValidDc2 i.flush.dc2Up (s.next i).pktDc3 (s.next i).i0ValidDc3 := moves_stage hf h.dc3

/-- DC3 to DC4: a freeze or a flush kills the packet. -/
theorem moves_dc4 : Moves s.pktDc3 s.i0ValidDc3 (i.flush.dc3 || i.freeze) (s.next i).pktDc4 (s.next i).i0ValidDc4 := by
  refine ⟨?_, fun hv => ?_⟩
  · simp only [next]
    cases s.pktDc3.valid <;> cases i.flush.dc3 <;> cases i.freeze <;> rfl
  · obtain ⟨hf, hp, -, heq⟩ := of_next_validDc4 hv
    refine ⟨heq, ?_⟩
    simp [next, freezeC2Dc4Clken, freezeC2Clken, freezeC1Dc4Clken, freezeC1Clken, hf, hp]

end Lsc

namespace Dec

open DestPkt

variable {s : Dec} {i : DecIn}

/-! ## Issue -/

/-- Decode issues at most one load or store, and it is the one in the packet of the pair. -/
theorem dd_alone (h : (s.dd i).lsu0 = true) : (s.dd i).lsu1 = false := by
  rw [dd_lsu0, Bool.and_eq_true] at h
  rw [dd_lsu1]
  by_contra h1
  rw [Bool.not_eq_false, Bool.and_eq_true] at h1
  have hblock := (i1Decode_dp h1.1).2
  simp [i1BlockD, h.2, h1.2] at hblock

/-- An issued load waits for `lsu_load_stall_any` and an issued store for `lsu_store_stall_any`. -/
theorem stall_of_i0Lsu (h : s.i0LegalDecodeD i = true) (hl : (i0dp i).lsu = true) :
    ((i0dp i).load = true ∧ i.lsuLoadStallAny = false) ∨ ((i0dp i).store = true ∧ i.lsuStoreStallAny = false) := by
  have hb := (of_i0Decode (legalDecode_decode h)).1
  simp only [i0BlockD, Bool.or_eq_false_iff, Bool.and_eq_false_iff] at hb
  obtain ⟨⟨⟨-, hstore⟩, hload⟩, -⟩ := hb
  have hk := i0dp_wf.kind (i0Legal_dp h) hl
  cases hst : (i0dp i).store with
  | true => exact Or.inr ⟨rfl, hstore.resolve_left (by rw [hst]; decide)⟩
  | false =>
    rw [hst] at hk
    exact Or.inl ⟨hk, hload.resolve_left (by rw [hk]; decide)⟩

/-- An access is decoded in slot `i1` only beside none in slot `i0`, and only without its stall. -/
theorem stall_of_i1Lsu (h : s.i1DecodeD i = true) (hl : (i1dp i).lsu = true) :
    (i0dp i).lsu = false ∧
      (((i1dp i).load = true ∧ i.lsuLoadStallAny = false) ∨ ((i1dp i).store = true ∧ i.lsuStoreStallAny = false)) := by
  obtain ⟨hlegal, hb⟩ := i1Decode_dp h
  simp only [i1BlockD, Bool.or_eq_false_iff, Bool.and_eq_false_iff] at hb
  obtain ⟨⟨⟨⟨⟨-, hstore⟩, halone⟩, -⟩, hload⟩, -⟩ := hb
  refine ⟨halone.resolve_left (by rw [hl]; decide), ?_⟩
  have hk := i1dp_wf.kind hlegal hl
  cases hst : (i1dp i).store with
  | true => exact Or.inr ⟨rfl, hstore.resolve_left (by rw [hst]; decide)⟩
  | false =>
    rw [hst] at hk
    exact Or.inl ⟨hk, hload.resolve_left (by rw [hk]; decide)⟩

end Dec

namespace Cpu

open Dec DestPkt

variable {s : Cpu} {i : CpuIn}

/-- What decode issues in a cycle agrees. -/
theorem agrees_issue : Agrees (s.dec.dd (s.decIn i)) (s.lsuP i) (s.dec.i0LsuDecodeD (s.decIn i)) := by
  have hvalid : (s.lsuP i).valid = ((s.dec.dd (s.decIn i)).lsu0 || (s.dec.dd (s.decIn i)).lsu1) := by
    rw [dd_lsu0, dd_lsu1]
    rfl
  refine ⟨hvalid, dd_alone, fun _ => dd_lsu0.symm, fun _ => rfl, fun hv => ?_⟩
  rw [hvalid, Bool.or_eq_true] at hv
  simp only [lsuP]
  cases h0 : (s.dec.dd (s.decIn i)).lsu0 with
  | true =>
    rw [dd_lsu0, Bool.and_eq_true] at h0
    simp [dd, h0.1, h0.2]
  | false =>
    rw [h0] at hv
    have h1 := hv.resolve_left (by decide)
    rw [dd_lsu1, Bool.and_eq_true] at h1
    simp [dd, (stall_of_i1Lsu h1.1 h1.2).1]

/-- Decode honours the stalls of the load/store unit. -/
theorem honoursStall : s.lsu.HonoursStall (s.lsuIn i) := by
  intro hv
  have hload : s.lsu.loadStallAny (s.lsuIn i) = (s.decIn i).lsuLoadStallAny := rfl
  have hstore : s.lsu.storeStallAny (s.lsuIn i) = (s.decIn i).lsuStoreStallAny := rfl
  have hd : s.dec.lsuDecodeD (s.decIn i) = true := hv
  simp only [lsuDecodeD, Bool.or_eq_true, Bool.and_eq_true] at hd
  rw [hload, hstore, lsuIn_p]
  simp only [lsuP]
  rcases hd with ⟨hdec, hl⟩ | ⟨hdec, hl⟩
  · simpa [hl] using stall_of_i0Lsu hdec hl
  · obtain ⟨h0, hs⟩ := stall_of_i1Lsu hdec hl
    simpa [h0] using hs

/-! ## The invariant -/

/-- The load/store unit is in step with decode; a branch that is resolved in slot `i0` is not a load or store; and at
most one external access is under way. -/
structure Aligned (s : Cpu) : Prop extends Sound s where
  dc1 : Agrees s.dec.e1d s.lsu.lsc.pktDc1 s.lsu.lsc.i0ValidDc1
  dc2 : s.dec.flushFinalE3 = false → Agrees s.dec.e2d s.lsu.lsc.pktDc2 s.lsu.lsc.i0ValidDc2
  dc3 : Agrees s.dec.e3d s.lsu.lsc.pktDc3 s.lsu.lsc.i0ValidDc3
  dc4 : Agrees s.dec.e4d s.lsu.lsc.pktDc4 s.lsu.lsc.i0ValidDc4
  aluE1 : s.exu.i0.aluE1.validFf = true → s.dec.e1d.lsu0 = false
  flushE2 : s.exu.i0.flushUpperE2 = true → s.dec.e2d.lsu0 = false
  flushE3 : s.dec.i0FlushFinalE3 = true → s.dec.e3d.lsu0 = false
  waits : s.lsu.bus.loadPending = true → s.dec.flushFinalE3 = false
  one : s.lsu.OneExternal

theorem aligned_reset (m : DccmMem) : Aligned { mem := m } :=
  { sound_reset m with
    dc1 := Agrees.empty rfl rfl
    dc2 := fun _ => Agrees.empty rfl rfl
    dc3 := Agrees.empty rfl rfl
    dc4 := Agrees.empty rfl rfl
    aluE1 := nofun
    flushE2 := nofun
    flushE3 := nofun
    waits := nofun
    one := LsuBus.oneExternal_reset }

/-- The line that removes what enters DC1, DC2 and DC3. -/
theorem flushes_dc2Up : s.flushes.dc2Up = (s.dec.flushFinalE3 || s.flushLowerWb) := by
  simp only [flushes, flushFinalE3]
  cases s.dec.i0FlushFinalE3 <;> cases s.dec.i1FlushFinalE3 <;> rfl

/-- The line that removes what leaves DC3. -/
theorem flushes_dc3 : s.flushes.dc3 = (s.dec.i0FlushFinalE3 || s.flushLowerWb) := by
  simp only [flushes, flushFinalE3]
  cases s.dec.i0FlushFinalE3 <;> cases s.dec.i1FlushFinalE3 <;> rfl

/-- The pipeline is never frozen with a flush from E2 under way. -/
theorem Aligned.not_flushFinalE3 (h : Aligned s) (hf : s.freeze i = true) : s.dec.flushFinalE3 = false := by
  simp only [freeze, LsuBus.freezeDc3, Bool.and_eq_true, Bool.or_eq_true] at hf
  rcases hf.1 with hreq | hp
  · simp only [LsuBus.loadRequestDc2, Bool.and_eq_true, Bool.not_eq_true'] at hreq
    have hup : s.flushes.dc2Up = false := hreq.2
    rw [flushes_dc2Up, Bool.or_eq_false_iff] at hup
    exact hup.1
  · exact h.waits hp

section Step

variable (h : Aligned s)

include h

/-- A cycle keeps E1 and DC1 in step. -/
theorem Aligned.dc1_next : Agrees (s.next i).dec.e1d (s.next i).lsu.lsc.pktDc1 (s.next i).lsu.lsc.i0ValidDc1 := by
  refine Agrees.of_same ?_ (next_e1d h.gated)
  rw [decIn_freeze]
  cases hf : s.freeze i with
  | true => exact h.dc1.hold (Lsc.holds_dc1 hf)
  | false =>
    -- decode issues nothing in a cycle with a flush
    have hup : (s.dec.dd (s.decIn i)).live = true → false = s.flushes.dc2Up := fun hl => by
      rw [dd_live] at hl
      obtain ⟨-, hfl, hff, -⟩ := of_i0Decode hl
      rw [decIn_flushLowerWb] at hfl
      rw [flushes_dc2Up, hfl, hff]
      rfl
    have hm := agrees_issue.move (fun hl => hup (live_of_lsu0 hl)) (fun hl => hup (live_of_lsu1 hl))
      (Lsc.moves_dc1 (i := s.lsu.lscIn (s.lsuIn i)) h.lsc hf)
    rwa [kill_false] at hm

/-- A cycle keeps E2 and DC2 in step, unless a branch of E3 is about to empty E2. -/
theorem Aligned.dc2_next (hff : (s.next i).dec.flushFinalE3 = false) :
    Agrees (s.next i).dec.e2d (s.next i).lsu.lsc.pktDc2 (s.next i).lsu.lsc.i0ValidDc2 := by
  refine Agrees.of_same ?_ (next_e2d h.gated)
  rw [decIn_freeze]
  cases hf : s.freeze i with
  | true =>
    rw [next_dec, next_flushFinalE3_of_freeze hf] at hff
    exact (h.dc2 hff).hold (Lsc.holds_dc2 hf)
  | false =>
    have hfl : s.flushLowerWb = false := by
      simp [flushFinalE3, Dec.next, hf, decIn, Exu.i0FlushFinal] at hff
      exact hff.1.1
    have hup : s.dec.flushFinalE3 = s.flushes.dc2Up := by
      rw [flushes_dc2Up, hfl, Bool.or_false]
    exact h.dc1.move (fun _ => hup) (fun _ => hup) (Lsc.moves_dc2 (i := s.lsu.lscIn (s.lsuIn i)) h.lsc hf)

theorem Aligned.dc3_next : Agrees (s.next i).dec.e3d (s.next i).lsu.lsc.pktDc3 (s.next i).lsu.lsc.i0ValidDc3 := by
  refine Agrees.of_same ?_ (next_e3d h.gated)
  rw [decIn_freeze]
  cases hf : s.freeze i with
  | true => exact h.dc3.hold (Lsc.holds_dc3 hf)
  | false =>
    have hm := Lsc.moves_dc3 (i := s.lsu.lscIn (s.lsuIn i)) h.lsc hf
    rw [LsuBus.lscIn_flush, lsuIn_flush, flushes_dc2Up] at hm
    cases hff : s.dec.flushFinalE3 with
    | true =>
      rw [hff] at hm
      refine Agrees.empty ?_ ?_
      · exact hm.valid.trans (Bool.and_false _)
      · simp [e2dIn, hff, kill_true]
    | false => exact (h.dc2 hff).move (fun _ => rfl) (fun _ => rfl) hm

theorem Aligned.dc4_next : Agrees (s.next i).dec.e4d (s.next i).lsu.lsc.pktDc4 (s.next i).lsu.lsc.i0ValidDc4 := by
  refine Agrees.of_same ?_ (next_e4d h.gated)
  have hm := Lsc.moves_dc4 (s := s.lsu.lsc) (i := s.lsu.lscIn (s.lsuIn i))
  rw [LsuBus.lscIn_flush, LsuBus.lscIn_freeze, freezeDc3_lsuIn, lsuIn_flush, flushes_dc3] at hm
  unfold e3dIn
  rw [decIn_freeze, decIn_flushLowerWb]
  cases hf : s.freeze i with
  | true =>
    rw [hf, Bool.or_true] at hm
    exact Agrees.empty (hm.valid.trans (Bool.and_false _)) rfl
  | false =>
    rw [hf, Bool.or_false] at hm
    -- a branch in `i0` that was mispredicted kills `i1` only, but then there is no access in `i0`
    refine h.dc3.move (fun hl => ?_) (fun _ => rfl) hm
    cases hff : s.dec.i0FlushFinalE3 with
    | false => rfl
    | true =>
      rw [h.flushE3 hff] at hl
      cases hl

/-- A branch in E1 of slot `i0` is not a load or store. -/
theorem Aligned.aluE1_next (hv : (s.next i).exu.i0.aluE1.validFf = true) : (s.next i).dec.e1d.lsu0 = false := by
  rw [next_dec, (next_e1d h.gated).lsu_eq.1, decIn_freeze]
  have hvalid : (s.next i).exu.i0.aluE1.validFf = rvdffs (!s.freeze i)
      (s.dec.i0AluDecodeD (s.decIn i) && !s.exu.flushFinal s.flushLowerWb (s.freeze i)) s.exu.i0.aluE1.validFf := rfl
  rw [hvalid] at hv
  cases hf : s.freeze i with
  | true =>
    rw [hf] at hv
    exact h.aluE1 hv
  | false =>
    rw [hf] at hv
    simp only [Bool.not_false, rvdffs_true, i0AluDecodeD, Bool.and_eq_true] at hv
    obtain ⟨⟨⟨hdec, halu⟩, -⟩, -⟩ := hv
    simp [dd_lsu0, (i0dp_wf.alu (i0Legal_dp hdec) halu).1]

theorem Aligned.flushE2_next (hv : (s.next i).exu.i0.flushUpperE2 = true) : (s.next i).dec.e2d.lsu0 = false := by
  have hflush : (s.next i).exu.i0.flushUpperE2 = rvdffs (s.dec.i0E2CtlEn (s.decIn i))
      (s.exu.i0.flushUpperE1 (s.exuI0In i)) s.exu.i0.flushUpperE2 := rfl
  have he2d : (s.next i).dec.e2d = rvdffs (s.dec.i0E2CtlEn (s.decIn i)) s.dec.e1dIn s.dec.e2d := rfl
  rw [hflush] at hv
  rw [he2d]
  cases hen : s.dec.i0E2CtlEn (s.decIn i) with
  | false =>
    rw [hen] at hv
    exact h.flushE2 hv
  | true =>
    rw [hen] at hv
    simp only [rvdffs_true, ExuSlot.flushUpperE1, Alu.flushUpper, Bool.and_eq_true] at hv
    rw [rvdffs_true, e1dIn, kill_lsu0, h.aluE1 hv.1.1.2, Bool.false_and]

/-- A branch that is mispredicted in E3 of slot `i0` is not a load or store. -/
theorem Aligned.flushE3_next (hv : (s.next i).dec.i0FlushFinalE3 = true) : (s.next i).dec.e3d.lsu0 = false := by
  rw [next_dec, (next_e3d h.gated).lsu_eq.1, decIn_freeze]
  have hflush : (s.next i).dec.i0FlushFinalE3 = rvdffs (!s.freeze i)
      (s.flushLowerWb || (s.exu.i0.flushUpperE2 && !s.freeze i)) s.dec.i0FlushFinalE3 := rfl
  rw [hflush] at hv
  cases hf : s.freeze i with
  | true =>
    rw [hf] at hv
    exact h.flushE3 hv
  | false =>
    rw [hf] at hv
    simp only [Bool.not_false, rvdffs_true, Bool.and_true, Bool.or_eq_true] at hv
    rcases hv with hfl | hup
    · simp [e2dIn, kill_lsu0, hfl]
    · simp [e2dIn, kill_lsu0, h.flushE2 hup]

/-- While a load waits for the bus, no branch in E3 flushes. -/
theorem Aligned.waits_next (hp : (s.next i).lsu.bus.loadPending = true) : (s.next i).dec.flushFinalE3 = false := by
  have hf : s.freeze i = true := (LsuBus.of_next_loadPending hp).2.1
  rw [next_dec, next_flushFinalE3_of_freeze hf]
  exact h.not_flushFinalE3 hf

/-- A cycle keeps the load/store unit in step with decode. -/
theorem Aligned.next : Aligned (s.next i) :=
  { h.toSound.next i with
    dc1 := h.dc1_next
    dc2 := h.dc2_next
    dc3 := h.dc3_next
    dc4 := h.dc4_next
    aluE1 := h.aluE1_next
    flushE2 := h.flushE2_next
    flushE3 := h.flushE3_next
    waits := h.waits_next
    one := h.one.next honoursStall }

end Step

/-- In every run the load/store unit is in step with decode. -/
theorem aligned_run (m : DccmMem) (w : Nat → CpuIn) (n : Nat) : Aligned ((machine m).run w n) :=
  Machine.run_invariant (E := fun _ _ => True) (aligned_reset m) (fun _ _ h _ => h.next) (fun _ => trivial) n

end Cpu

end SocRV
