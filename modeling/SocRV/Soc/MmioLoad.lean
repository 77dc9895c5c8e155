import SocRV.Lsu.FlatMemory
import SocRV.Soc.MmioPath

/-!
# The load that is answered

A pending load leaves DC2 in the cycle in which the bus answers, and forms its result one core cycle later in DC3
from what the clock bridge holds then.  `lsu_error_pkt_dc3` takes the error of the answer in the first of the two
cycles, for the packet that is in DC3 at that time.
-/

namespace SocRV

/-- `lsu_error_pkt_dc3`; the memory has no ECC. -/
structure LsuErrorPktDc3 where
  excValid : Bool
  instType : Bool
  instPipe : Bool
  excType : Bool
  addr : BitVec 32
  deriving DecidableEq, Repr

/-- What a load returns of the word the peripheral answers with: the byte, half or word at its address, extended to
a word. -/
def LsuPkt.loaded (p : LsuPkt) (addr rdata : BitVec 32) : BitVec 32 :=
  let offset := 8 * (addr.extractLsb' 0 2).toNat
  if p.byte then
    if p.unsign then (rdata.extractLsb' offset 8).zeroExtend 32 else (rdata.extractLsb' offset 8).signExtend 32
  else if p.half then
    if p.unsign then (rdata.extractLsb' offset 16).zeroExtend 32 else (rdata.extractLsb' offset 16).signExtend 32
  else rdata.extractLsb' offset 32

/-- The low bits of a shifted word are those from the shift on. -/
theorem extractLsb'_shiftRight (d : BitVec 32) (k n : Nat) : (d >>> k).extractLsb' 0 n = d.extractLsb' k n := by
  apply BitVec.eq_of_getLsbD_eq
  intro j hj
  simp [hj]

/-- A shifted word is its upper bits. -/
theorem shiftRight_eq_extractLsb' (d : BitVec 32) (k : Nat) : d >>> k = d.extractLsb' k 32 := by
  apply BitVec.eq_of_getLsbD_eq
  intro j hj
  simp [hj]

/-- The extension of `lsu_result_dc3`, applied to the data moved to the low lanes. -/
theorem LsuPkt.extend_shiftRight {p : LsuPkt} (h : p.OneSize) (addr rdata : BitVec 32) :
    p.extend (rdata >>> (8 * (addr.extractLsb' 0 2).toNat)) = p.loaded addr rdata := by
  rcases OneSize_cases h with ⟨hb, hh, hw, -⟩ | ⟨hb, hh, hw, -⟩ | ⟨hb, hh, hw, -⟩
  · cases hu : p.unsign <;> simp [LsuPkt.extend, LsuPkt.loaded, hb, hh, hw, hu, extractLsb'_shiftRight]
  · cases hu : p.unsign <;> simp [LsuPkt.extend, LsuPkt.loaded, hb, hh, hw, hu, extractLsb'_shiftRight]
  · simp [LsuPkt.extend, LsuPkt.loaded, hb, hh, hw, shiftRight_eq_extractLsb']

namespace LsuBus

variable {s : LsuBus} {i : LsuBusIn}

/-- `lsu_error_pkt_dc3`. -/
def errorPktDc3 (s : LsuBus) (i : LsuBusIn) : LsuErrorPktDc3 where
  excValid := (s.lsc.accessFaultDc3 || s.lsc.misalignedFaultDc3 || s.ldBusErrorDc3 i) && s.lsc.pktDc3.valid &&
    !i.lsc.flush.dc3
  instType := s.lsc.pktDc3.store
  instPipe := !s.lsc.i0ValidDc3
  excType := !s.lsc.misalignedFaultDc3
  addr := s.lsc.addrDc3

/-- The packet in DC3 has a fault of its own, found by the address check. -/
def ownFaultDc3 (s : LsuBus) (i : LsuBusIn) : Bool :=
  (s.lsc.accessFaultDc3 || s.lsc.misalignedFaultDc3) && s.lsc.pktDc3.valid && !i.lsc.flush.dc3

/-- An answered load moves to DC3 with its address, its slot and no fault, and is pending no more. -/
theorem next_answered (h : OneExternal s) (hp : s.bus.loadPending = true) (hr : i.mmioReady = true)
    (hflush : i.lsc.flush.dc2Up = false) :
    (s.next i).lsc.pktDc3 = s.lsc.pktDc2 ∧ (s.next i).lsc.addrDc3 = s.lsc.addrDc2 ∧
    (s.next i).lsc.i0ValidDc3 = s.lsc.i0ValidDc2 ∧ (s.next i).lsc.addrExternalDc3 = true ∧
    (s.next i).lsc.accessFaultDc3 = false ∧ (s.next i).lsc.misalignedFaultDc3 = false ∧
    (s.next i).bus.loadPending = false ∧ (s.next i).bus.loadAddrQ = s.lsc.addrDc2 := by
  obtain ⟨hext, -, hexc, haddr⟩ := h.load hp
  obtain ⟨hv, hextDc2⟩ : s.lsc.pktDc2.valid = true ∧ s.lsc.addrExternalDc2 = true := by
    simpa [Lsc.externalDc2] using hext
  obtain ⟨hacc, hmis⟩ : s.lsc.accessFaultDc2 = false ∧ s.lsc.misalignedFaultDc2 = false := by
    simpa [Lsc.excDc2] using hexc
  have hf : s.freezeDc3 i = false := freezeDc3_of_answered hp hr
  have hen : s.lsc.freezeC1Dc3Clken (s.lscIn i) = true := by
    simp [Lsc.freezeC1Dc3Clken, Lsc.freezeC1Clken, hv, hf]
  have hen2 : s.lsc.freezeC2Dc3Clken (s.lscIn i) = true := by
    simp [Lsc.freezeC2Dc3Clken, Lsc.freezeC2Clken, hen, hf]
  have hpkt : (s.next i).lsc.pktDc3 = { s.lsc.pktDc2 with valid := true } := by
    simp [next, Lsc.next, Lsc.pktReg, hen, hen2, hv, hflush]
  refine ⟨?_, ?_, ?_, ?_, ?_, ?_, ?_, ?_⟩
  · rw [hpkt, ← hv]
  · simp [next, Lsc.next, hen]
  · simp [next, Lsc.next, hen2]
  · simp [next, Lsc.next, hen, hextDc2]
  · simp [next, Lsc.next, hen, hacc]
  · simp [next, Lsc.next, hen, hmis]
  · simp [next, nextBus, loadClear, BusIntf.mmioValid, hp, hr]
  · simp [next, nextBus, hp, haddr]

end LsuBus

namespace MmioPath

variable {s : MmioPath} {t : MmioTick}

/-- The load in DC2 is answered at this core edge and moves to DC3. -/
def LoadAnswered (s : MmioPath) (i : LsuBusIn) : Prop :=
  s.lsu.bus.loadPending = true ∧ s.bridge.coreReqReady = true ∧ i.lsc.flush.dc2Up = false

/-- Ticks without a core edge leave the load/store unit and the core side of the bridge. -/
theorem run_of_no_core {w : Nat → MmioTick} {n k : Nat} (h : ∀ m, n ≤ m → m < n + k → (w m).core = none) :
    (machine.run w (n + k)).lsu = (machine.run w n).lsu ∧
    (machine.run w (n + k)).bridge.core = (machine.run w n).bridge.core := by
  induction k with
  | zero => exact ⟨rfl, rfl⟩
  | succ k ih =>
    obtain ⟨hlsu, hcore⟩ := ih fun m hm hlt => h m hm (by omega)
    have hnone := h (n + k) (by omega) (by omega)
    have hstep : machine.run w (n + (k + 1)) = (machine.run w (n + k)).next (w (n + k)) := rfl
    refine ⟨?_, ?_⟩
    · rw [hstep, ← hlsu]
      simp [next, hnone]
    · rw [hstep, ← hcore]
      simp [next, Bridge.next, bridgeTick, hnone]

/-- At the edge that completes a request the bridge gives the answer, and it still does at the next one. -/
theorem coreResp_of_answered {p : Payload} {a : Answer} (hR : s.bridge.Refines (.answered p a))
    (hr : s.bridge.coreReqReady = true) (hc : t.core.isSome = true) :
    s.bridge.coreResp = a ∧ (s.next t).bridge.coreResp = a := by
  obtain ⟨hbusy, -, -, -, -, -, -, -, hmeta, hsync⟩ := hR
  have htoggle : s.bridge.core.respToggleSyncQ = s.bridge.core.reqToggleQ := by
    simpa [Bridge.coreReqReady, hbusy] using hr
  obtain ⟨hmetaToggle, hresp⟩ := hsync htoggle
  obtain ⟨i, hi⟩ := Option.isSome_iff_exists.mp hc
  refine ⟨hresp, ?_⟩
  have hnext : (s.next t).bridge.coreResp = s.bridge.core.respMetaQ := by
    simp only [next, Bridge.next, bridgeTick, hi, Bridge.coreResp, Option.map_some, Option.elim_some, Bridge.coreEdge]
    split
    · rfl
    · split <;> rfl
  rw [hnext]
  exact hmeta hmetaToggle

end MmioPath

end SocRV
