import SocRV.Core.Decode

/-!
# The stages of the pipeline

The destination packet of a stage is clocked only while a pair is near, so a register may keep an old packet; but then
the packet is dead, and so is the one it misses.  Up to dead packets each stage takes what the stage before hands on:
`Same` says so, and everything that is claimed of live packets only follows along it.
-/

namespace SocRV

namespace DestPkt

/-- One of the two instructions of the pair is valid. -/
def live (d : DestPkt) : Bool := d.i0valid || d.i1valid

/-- A valid load or store in slot `i0`. -/
def lsu0 (d : DestPkt) : Bool := d.i0valid && d.i0lsu

/-- A valid load or store in slot `i1`. -/
def lsu1 (d : DestPkt) : Bool := d.i1valid && d.i1lsu

/-- Equal, or both dead. -/
def Same (d d' : DestPkt) : Prop := d = d' ∨ (d.live = false ∧ d'.live = false)

/-- A valid bit that only a valid instruction has. -/
structure Wf (d : DestPkt) : Prop where
  i0v : d.i0v = true → d.i0valid = true
  i1v : d.i1v = true → d.i1valid = true
  i0secondary : d.i0secondary = true → d.i0valid = true

variable {d d' : DestPkt} {k0 k1 : Bool}

theorem Same.refl (d : DestPkt) : Same d d := Or.inl rfl

/-- What a live packet shows comes from the packet it is the same as. -/
theorem Same.eq_of_live (h : Same d d') (hl : d.live = true) : d = d' := by
  rcases h with h | ⟨h, -⟩
  · exact h
  · rw [h] at hl
    cases hl

/-- Packets that are the same are live together. -/
theorem Same.live_eq (h : Same d d') : d.live = d'.live := by
  rcases h with h | ⟨h, h'⟩
  · rw [h]
  · rw [h, h']

/-- A dead packet has no valid slot. -/
theorem valid_of_not_live (h : d.live = false) : d.i0valid = false ∧ d.i1valid = false := by
  simpa [live] using h

/-- Packets that are the same agree on which slots are valid. -/
theorem Same.valid_eq (h : Same d d') : d.i0valid = d'.i0valid ∧ d.i1valid = d'.i1valid := by
  rcases h with rfl | ⟨h, h'⟩
  · exact ⟨rfl, rfl⟩
  · obtain ⟨h0, h1⟩ := valid_of_not_live h
    obtain ⟨h0', h1'⟩ := valid_of_not_live h'
    exact ⟨h0.trans h0'.symm, h1.trans h1'.symm⟩

/-- Packets that are the same agree on which slots hold a load or store. -/
theorem Same.lsu_eq (h : Same d d') : d.lsu0 = d'.lsu0 ∧ d.lsu1 = d'.lsu1 := by
  rcases h with rfl | ⟨h, h'⟩
  · exact ⟨rfl, rfl⟩
  · obtain ⟨h0, h1⟩ := valid_of_not_live h
    obtain ⟨h0', h1'⟩ := valid_of_not_live h'
    simp [lsu0, lsu1, h0, h1, h0', h1']

/-- A packet with a valid slot `i0` is live. -/
theorem live_of_i0valid (h : d.i0valid = true) : d.live = true := by
  rw [live, h, Bool.true_or]

theorem live_of_i1valid (h : d.i1valid = true) : d.live = true := by
  rw [live, h, Bool.or_true]

/-- A packet with a load or store in slot `i0` is live. -/
theorem live_of_lsu0 (h : d.lsu0 = true) : d.live = true := by
  simp only [lsu0, Bool.and_eq_true] at h
  simp [live, h.1]

theorem live_of_lsu1 (h : d.lsu1 = true) : d.live = true := by
  simp only [lsu1, Bool.and_eq_true] at h
  simp [live, h.1]

/-- Killing neither slot changes nothing. -/
@[simp] theorem kill_false (d : DestPkt) : d.kill false false = d := by simp [kill]

theorem kill_true (d : DestPkt) : (d.kill true true).live = false := by simp [kill, live]

@[simp] theorem kill_i0valid : (d.kill k0 k1).i0valid = (d.i0valid && !k0) := rfl

@[simp] theorem kill_i1valid : (d.kill k0 k1).i1valid = (d.i1valid && !k1) := rfl

/-- A kill of slot `i0` also takes its load or store away. -/
@[simp] theorem kill_lsu0 : (d.kill k0 k1).lsu0 = (d.lsu0 && !k0) := by
  simp only [lsu0, i0lsu, kill]
  ac_rfl

@[simp] theorem kill_lsu1 : (d.kill k0 k1).lsu1 = (d.lsu1 && !k1) := by
  simp only [lsu1, i1lsu, kill]
  ac_rfl

/-- A killed packet that is still live was live. -/
theorem live_of_kill (h : (d.kill k0 k1).live = true) : d.live = true := by
  simp only [live, kill, Bool.or_eq_true, Bool.and_eq_true] at h ⊢
  exact h.imp And.left And.left

/-- A kill keeps the bits that only valid instructions have on valid instructions. -/
theorem Wf.kill (h : d.Wf) (k0 k1 : Bool) : (d.kill k0 k1).Wf := by
  refine ⟨fun hv => ?_, fun hv => ?_, fun hv => ?_⟩ <;>
    simp only [DestPkt.kill, Bool.and_eq_true] at hv ⊢
  · exact ⟨h.i0v hv.1, hv.2⟩
  · exact ⟨h.i1v hv.1, hv.2⟩
  · exact ⟨h.i0secondary hv.1, hv.2⟩

theorem wf_empty : ({} : DestPkt).Wf := ⟨nofun, nofun, nofun⟩

/-- A register with an enable holds a well formed packet when its old value and its input are well formed. -/
theorem rvdffs_wf {en : Bool} (hd : d.Wf) (hd' : d'.Wf) : (rvdffs en d d').Wf := by
  cases en
  · exact hd'
  · exact hd

end DestPkt

namespace Dec

open DestPkt

variable {s : Dec} {i : DecIn}

/-! ## What decode issues -/

/-- A legal decode of slot `i0` is a decode of it. -/
theorem legalDecode_decode (h : s.i0LegalDecodeD i = true) : s.i0DecodeD i = true := by
  simp only [i0LegalDecodeD, Bool.and_eq_true] at h
  exact h.1.1

/-- Slot `i1` is decoded only beside a legal slot `i0`. -/
theorem i1Decode_legalDecode (h : s.i1DecodeD i = true) : s.i0LegalDecodeD i = true := by
  simp only [i1DecodeD, Bool.and_eq_true] at h
  exact h.1.1.1.1

/-- Nothing is decoded in a cycle with a flush or a freeze. -/
theorem of_i0Decode (h : s.i0DecodeD i = true) :
    s.i0BlockD i = false ∧ i.flushLowerWb = false ∧ s.flushFinalE3 = false ∧ i.freeze = false := by
  simp only [i0DecodeD, Bool.and_eq_true, Bool.not_eq_true'] at h
  exact ⟨h.1.1.1.2, h.1.1.2, h.1.2, h.2⟩

/-- The packet decode issues is live exactly when slot `i0` is decoded. -/
theorem dd_live : (s.dd i).live = s.i0DecodeD i := by
  cases h : s.i0DecodeD i with
  | true => simp [live, dd, h]
  | false =>
    have hi1 : s.i1DecodeD i = false := by
      by_contra hd
      rw [Bool.not_eq_false] at hd
      rw [legalDecode_decode (i1Decode_legalDecode hd)] at h
      cases h
    simp [live, dd, h, hi1]

/-- The packet decode issues is well formed. -/
theorem dd_wf : (s.dd i).Wf := by
  refine ⟨fun h => ?_, fun h => ?_, fun h => ?_⟩
  · simp only [dd, Bool.and_eq_true] at h
    exact legalDecode_decode h.2
  · simp only [dd, Bool.and_eq_true] at h
    exact h.2
  · simp only [dd, Bool.and_eq_true] at h
    exact legalDecode_decode h.2

/-- A legal decode of slot `i0` has a legal decode packet. -/
theorem i0Legal_dp (h : s.i0LegalDecodeD i = true) : (i0dp i).legal = true := by
  simp only [i0LegalDecodeD, i0Legal, Bool.and_eq_true] at h
  exact h.1.2.1

/-- A decoded slot `i1` has a legal decode packet and nothing blocks it. -/
theorem i1Decode_dp (h : s.i1DecodeD i = true) : (i1dp i).legal = true ∧ i1BlockD i = false := by
  simp only [i1DecodeD, Bool.and_eq_true, Bool.not_eq_true'] at h
  exact ⟨h.1.1.2, h.1.2⟩

/-- The decode packet of slot `i0` is well formed. -/
theorem i0dp_wf : (i0dp i).Wf := i0Dp_wf _ _ _ _

theorem i1dp_wf : (i1dp i).Wf := i1Dp_wf _ _

/-- The loads and stores in the packet of decode are what the load/store unit gets. -/
theorem dd_lsu0 : (s.dd i).lsu0 = (s.i0LegalDecodeD i && (i0dp i).lsu) := by
  cases h : s.i0LegalDecodeD i with
  | false => simp [lsu0, i0lsu, dd, h]
  | true => simp [lsu0, i0lsu, dd, h, legalDecode_decode h, i0dp_wf.lsu (i0Legal_dp h)]

/-- The issued packet has a load or store in slot `i1` when that slot is decoded as one. -/
theorem dd_lsu1 : (s.dd i).lsu1 = (s.i1DecodeD i && (i1dp i).lsu) := by
  cases h : s.i1DecodeD i with
  | false => simp [lsu1, i1lsu, dd, h]
  | true => simp [lsu1, i1lsu, dd, h, i1dp_wf.lsu (i1Decode_dp h).1]

/-! ## Gated stages -/

/-- A live packet is covered by the enable bit of its stage, so gating the clocks loses nothing. -/
structure Gated (s : Dec) : Prop where
  e1 : s.e1d.live = true → s.i0PipeEn4 = true
  e2 : s.e2d.live = true → s.i0PipeEn3 = true
  e3 : s.e3d.live = true → s.i0PipeEn2 = true
  e4 : s.e4d.live = true → s.i0PipeEn1 = true
  wb : s.wbd.live = true → s.i0PipeEn0 = true ∨ s.divWenWb = true ∨ s.fpuWenWb = true

theorem gated_reset : Gated {} := ⟨nofun, nofun, nofun, nofun, nofun⟩

/-- A stage that is not clocked has nothing to miss. -/
theorem same_rvdffs {en : Bool} {din dout : DestPkt} (h : en = false → din.live = false ∧ dout.live = false) :
    Same (rvdffs en din dout) din := by
  cases en with
  | true => exact Same.refl _
  | false => exact Or.inr (h rfl).symm

/-- Not live, when the enable that covers a live packet is low. -/
theorem not_live_of {d : DestPkt} {en : Bool} (h : d.live = true → en = true) (hen : en = false) : d.live = false := by
  by_contra hl
  rw [Bool.not_eq_false] at hl
  rw [h hl] at hen
  cases hen

/-- E1 takes what decode issues, up to dead packets, and keeps its packet in a freeze. -/
theorem next_e1d (h : Gated s) : Same (s.next i).e1d (if i.freeze then s.e1d else s.dd i) := by
  cases hf : i.freeze with
  | true => exact Or.inl (by simp [next, i0E1CtlEn, hf])
  | false =>
    refine same_rvdffs fun hen => ?_
    simp only [i0E1CtlEn, hf, Bool.not_false, Bool.and_true, Bool.or_eq_false_iff] at hen
    exact ⟨dd_live.trans hen.1.1, not_live_of h.e1 hen.1.2⟩

/-- E2 takes what E1 hands on, up to dead packets, and keeps its packet in a freeze. -/
theorem next_e2d (h : Gated s) : Same (s.next i).e2d (if i.freeze then s.e2d else s.e1dIn) := by
  cases hf : i.freeze with
  | true => exact Or.inl (by simp [next, i0E2CtlEn, hf])
  | false =>
    refine same_rvdffs fun hen => ?_
    simp only [i0E2CtlEn, hf, Bool.not_false, Bool.and_true, Bool.or_eq_false_iff] at hen
    exact ⟨not_live_of (fun hl => h.e1 (live_of_kill hl)) hen.1.1, not_live_of h.e2 hen.1.2⟩

/-- E3 takes what E2 hands on, up to dead packets, and keeps its packet in a freeze. -/
theorem next_e3d (h : Gated s) : Same (s.next i).e3d (if i.freeze then s.e3d else s.e2dIn i) := by
  cases hf : i.freeze with
  | true => exact Or.inl (by simp [next, i0E3CtlEn, hf])
  | false =>
    refine same_rvdffs fun hen => ?_
    simp only [i0E3CtlEn, hf, Bool.not_false, Bool.and_true, Bool.or_eq_false_iff] at hen
    exact ⟨not_live_of (fun hl => h.e2 (live_of_kill hl)) hen.1.1, not_live_of h.e3 hen.1.2⟩

/-- A live packet leaves E3 only when E3 holds it and nothing is frozen. -/
theorem e3dIn_live (h : (s.e3dIn i).live = true) : s.e3d.live = true ∧ i.freeze = false := by
  unfold e3dIn at h
  cases hf : i.freeze with
  | true =>
    rw [hf, if_pos rfl] at h
    cases h
  | false =>
    rw [hf] at h
    exact ⟨live_of_kill h, rfl⟩

/-- E4 takes what E3 hands on, up to dead packets. -/
theorem next_e4d (h : Gated s) : Same (s.next i).e4d (s.e3dIn i) := by
  refine same_rvdffs fun hen => ?_
  simp only [i0E4CtlEn, Bool.or_eq_false_iff] at hen
  exact ⟨not_live_of (fun hl => h.e3 (e3dIn_live hl).1) hen.1.1, not_live_of h.e4 hen.1.2⟩

/-- What write-back gets is live only if E4 was or a long operation completes. -/
theorem e4dIn_live (h : (s.e4dIn i).live = true) :
    (s.e4d.live = true ∧ i.flushLowerWb = false) ∨ i.exuDivFinish = true ∨ i.fpuRespValid = true := by
  simp only [live, e4dIn, Bool.or_eq_true, Bool.and_eq_true, Bool.not_eq_true'] at h ⊢
  rcases h with ((⟨⟨h, -⟩, hf⟩ | h) | h) | ⟨h, hf⟩
  · exact Or.inl ⟨Or.inl h, hf⟩
  · exact Or.inr (Or.inl h)
  · exact Or.inr (Or.inr h)
  · exact Or.inl ⟨Or.inr h, hf⟩

/-- Write-back takes what E4 hands on, up to dead packets. -/
theorem next_wbd (h : Gated s) : Same (s.next i).wbd (s.e4dIn i) := by
  refine same_rvdffs fun hen => ?_
  simp only [i0WbCtlEn, Bool.or_eq_false_iff] at hen
  obtain ⟨⟨⟨⟨⟨⟨h1, h0⟩, -⟩, hdiv⟩, hdw⟩, hfpu⟩, hfw⟩ := hen
  constructor
  · by_contra hl
    rw [Bool.not_eq_false] at hl
    rcases e4dIn_live hl with ⟨hl, -⟩ | hd | hf
    · rw [h.e4 hl] at h1
      cases h1
    · rw [hd] at hdiv
      cases hdiv
    · rw [hf] at hfpu
      cases hfpu
  · by_contra hl
    rw [Bool.not_eq_false] at hl
    rcases h.wb hl with hp | hd | hf
    · rw [hp] at h0
      cases h0
    · rw [hd] at hdw
      cases hdw
    · rw [hf] at hfw
      cases hfw

/-- A cycle keeps the relation between live stages and the clock enables. -/
theorem Gated.next (h : Gated s) (i : DecIn) : Gated (s.next i) := by
  refine ⟨fun hl => ?_, fun hl => ?_, fun hl => ?_, fun hl => ?_, fun hl => ?_⟩
  · rw [(next_e1d h).live_eq] at hl
    cases hf : i.freeze with
    | true =>
      rw [hf, if_pos rfl] at hl
      simpa [Dec.next, hf] using h.e1 hl
    | false =>
      rw [hf] at hl
      simpa [Dec.next, hf] using dd_live.symm.trans hl
  · rw [(next_e2d h).live_eq] at hl
    cases hf : i.freeze with
    | true =>
      rw [hf, if_pos rfl] at hl
      simpa [Dec.next, hf] using h.e2 hl
    | false =>
      rw [hf] at hl
      simpa [Dec.next, hf] using h.e1 (live_of_kill hl)
  · rw [(next_e3d h).live_eq] at hl
    cases hf : i.freeze with
    | true =>
      rw [hf, if_pos rfl] at hl
      simpa [Dec.next, hf] using h.e3 hl
    | false =>
      rw [hf] at hl
      simpa [Dec.next, hf] using h.e2 (live_of_kill hl)
  · rw [(next_e4d h).live_eq] at hl
    exact h.e3 (e3dIn_live hl).1
  · rw [(next_wbd h).live_eq] at hl
    rcases e4dIn_live hl with ⟨hl, -⟩ | hd | hf
    · exact Or.inl (h.e4 hl)
    · exact Or.inr (Or.inl hd)
    · exact Or.inr (Or.inr hf)

/-- Every packet in the pipeline has its write bits covered. -/
structure WfPkts (s : Dec) : Prop where
  e1 : s.e1d.Wf
  e2 : s.e2d.Wf
  e3 : s.e3d.Wf
  e4 : s.e4d.Wf
  wb : (s.wbd.i0v = true → s.wbd.i0valid = true) ∧ (s.wbd.i1v = true → s.wbd.i1valid = true)

theorem wfPkts_reset : WfPkts {} := ⟨wf_empty, wf_empty, wf_empty, wf_empty, nofun, nofun⟩

/-- A floating-point operation writes when it completes, not when its packet leaves E4. -/
theorem e4dIn_wf (h : s.e4d.Wf) :
    ((s.e4dIn i).i0v = true → (s.e4dIn i).i0valid = true) ∧ ((s.e4dIn i).i1v = true → (s.e4dIn i).i1valid = true) := by
  simp only [e4dIn, Bool.or_eq_true, Bool.and_eq_true, Bool.not_eq_true']
  constructor
  · rintro ((⟨⟨⟨hv, -⟩, hf⟩, hfl⟩ | ⟨hd, -⟩) | ⟨⟨hr, -⟩, -⟩)
    · exact Or.inl (Or.inl ⟨⟨h.i0v hv, hf⟩, hfl⟩)
    · exact Or.inl (Or.inr hd)
    · exact Or.inr hr
  · rintro ⟨hv, hfl⟩
    exact ⟨h.i1v hv, hfl⟩

/-- A cycle keeps the packets of all stages well formed. -/
theorem WfPkts.next (h : WfPkts s) (i : DecIn) : WfPkts (s.next i) := by
  refine ⟨rvdffs_wf dd_wf h.e1, rvdffs_wf (h.e1.kill _ _) h.e2, rvdffs_wf (h.e2.kill _ _) h.e3,
    rvdffs_wf ?_ h.e4, ?_⟩
  · unfold e3dIn
    split_ifs
    · exact wf_empty
    · exact h.e3.kill _ _
  · simp only [Dec.next]
    cases (s.i0WbCtlEn i || i.exuDivFinish || s.divWenWb || i.fpuRespValid || s.fpuWenWb)
    · exact h.wb
    · exact e4dIn_wf h.e4

end Dec

end SocRV
