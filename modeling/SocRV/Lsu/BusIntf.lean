import SocRV.Lsu.LscCtl
import SocRV.Soc.ClockBridge

/-!
# The bus interface of the load/store unit

`lsu_bus_intf` turns an external load in DC2 and a committed external store in DC5 into requests on the
`lsu_mmio` bus, one flag for each.  A pending load freezes the pipeline until the bus answers.  The composition
with the load/store pipeline computes the freeze and the stalls as `lsu.sv` wires them; what the bus answers,
the flush lines and the packets decode issues are inputs.
-/

namespace SocRV

/-- The registers of `lsu_bus_intf`. -/
structure BusIntf where
  loadPending : Bool := false
  storePending : Bool := false
  loadAddrQ : BitVec 32 := 0
  storeAddrQ : BitVec 32 := 0
  storeWdataQ : BitVec 32 := 0
  storeWstrbQ : BitVec 4 := 0
  deriving DecidableEq, Repr

/-- The pipeline together with the bus interface. -/
structure LsuBus where
  lsc : Lsc := {}
  bus : BusIntf := {}
  deriving DecidableEq, Repr

/-- The inputs of a core cycle: the packet issued by decode with its operands, the flush lines, the bus answer
and `lsu_stbuf_full_any` of the store buffer. -/
structure LsuBusIn where
  lsc : LscIn := {}
  cancelE4 : Bool := false
  mmioReady : Bool := false
  mmioResp : Answer := .zero
  stbufFullAny : Bool := false
  deriving DecidableEq, Repr

/-- The byte enables of an access before it is moved to its lane. -/
def LsuPkt.mask (p : LsuPkt) : BitVec 4 :=
  (if p.byte then 0b0001#4 else 0) ||| (if p.half then 0b0011#4 else 0) ||| (if p.word then 0b1111#4 else 0)

namespace BusIntf

variable (b : BusIntf)

/-- `lsu_mmio_valid`. -/
def mmioValid : Bool := b.loadPending || b.storePending

/-- The request on `lsu_mmio`: the store's when one is pending, else the load's. -/
def mmioReq : Payload :=
  if b.storePending then ⟨true, b.storeAddrQ, b.storeWdataQ, b.storeWstrbQ⟩ else ⟨false, b.loadAddrQ, 0, 0⟩

end BusIntf

namespace LsuBus

variable (s : LsuBus) (i : LsuBusIn)

/-- `lsu_busreq_dc2`. -/
def busreqDc2 : Bool :=
  s.lsc.pktDc2.valid && (s.lsc.pktDc2.load || s.lsc.pktDc2.store) && s.lsc.addrExternalDc2 &&
    !i.lsc.flush.dc2Up && !s.lsc.excDc2

/-- `load_request_dc2`. -/
def loadRequestDc2 : Bool := s.busreqDc2 i && s.lsc.pktDc2.load && !i.lsc.flush.dc2Up

/-- `lsu_freeze_dc3`. -/
def freezeDc3 : Bool :=
  (s.loadRequestDc2 i || s.bus.loadPending) && !(s.bus.loadPending && i.mmioReady)

/-- `bus_read_data_dc3`. -/
def busReadDataDc3 : BitVec 32 := i.mmioResp.rdata >>> (8 * (s.bus.loadAddrQ.extractLsb' 0 2).toNat)

/-- `ld_bus_error_dc3`. -/
def ldBusErrorDc3 : Bool := s.bus.loadPending && i.mmioReady && i.mmioResp.error

/-- The pipeline's inputs, with the freeze and the bus data of this cycle. -/
def lscIn : LscIn := { i.lsc with freeze := s.freezeDc3 i, busReadDataDc3 := s.busReadDataDc3 i }

/-- `external_in_pipe`. -/
def externalInPipe : Bool :=
  s.lsc.externalDc1 (s.lscIn i) || s.lsc.externalDc2 || s.lsc.externalDc3 || s.lsc.externalDc4 ||
    s.lsc.externalDc5

/-- `lsu_bus_buffer_full_any`. -/
def busBufferFullAny : Bool := s.externalInPipe i || s.bus.loadPending || s.bus.storePending

/-- `lsu_load_stall_any`. -/
def loadStallAny : Bool := s.busBufferFullAny i

/-- `lsu_store_stall_any`. -/
def storeStallAny : Bool := i.stbufFullAny || s.busBufferFullAny i

/-- `lsu_commit_dc5`. -/
def commitDc5 : Bool := s.lsc.commitDc5 (s.lscIn i)

/-- `lsu_busreq_dc5`. -/
def busreqDc5 : Bool :=
  s.lsc.pktDc5.valid && s.lsc.addrExternalDc5 && (s.lsc.pktDc5.load || s.lsc.pktDc5.store)

/-- A committed external store leaves DC5. -/
def storeRequestDc5 : Bool := s.busreqDc5 && s.lsc.pktDc5.store && s.commitDc5 i

/-- The request of the store in DC5: its data and byte enables moved to the lanes of its address. -/
def storeReqDc5 : Payload where
  write := true
  addr := s.lsc.addrDc5
  wdata := s.lsc.storeDataDc5 <<< (8 * (s.lsc.addrDc5.extractLsb' 0 2).toNat)
  wstrb := s.lsc.pktDc5.mask <<< (s.lsc.addrDc5.extractLsb' 0 2).toNat

/-- A pending load is given up: it is answered, cancelled or flushed. -/
def loadClear : Bool :=
  (i.mmioReady && s.bus.mmioValid) || i.cancelE4 || i.lsc.flush.dc3 || i.lsc.flush.dc4 || i.lsc.flush.dc5

/-- The registers of the bus interface after a core cycle. -/
def nextBus : BusIntf where
  loadPending := if s.bus.loadPending then !s.loadClear i else s.loadRequestDc2 i
  loadAddrQ := if !s.bus.loadPending && s.loadRequestDc2 i then s.lsc.addrDc2 else s.bus.loadAddrQ
  storePending :=
    if s.bus.storePending then !(i.mmioReady && s.bus.mmioValid) else s.storeRequestDc5 i
  storeAddrQ := if !s.bus.storePending && s.storeRequestDc5 i then s.storeReqDc5.addr else s.bus.storeAddrQ
  storeWdataQ := if !s.bus.storePending && s.storeRequestDc5 i then s.storeReqDc5.wdata else s.bus.storeWdataQ
  storeWstrbQ := if !s.bus.storePending && s.storeRequestDc5 i then s.storeReqDc5.wstrb else s.bus.storeWstrbQ

/-- The registers after a core cycle. -/
def next : LsuBus where
  lsc := s.lsc.next (s.lscIn i)
  bus := s.nextBus i

/-- The load/store pipeline and its bus interface from reset. -/
def machine : Machine LsuBus LsuBusIn := ⟨{}, next⟩

/-- Decode issues one packet a cycle, a load only while `lsu_load_stall_any` is low and a store only while
`lsu_store_stall_any` is low. -/
def HonoursStall : Prop :=
  i.lsc.p.valid = true →
    (i.lsc.p.load = true ∧ s.loadStallAny i = false) ∨ (i.lsc.p.store = true ∧ s.storeStallAny i = false)

instance : Decidable (s.HonoursStall i) :=
  inferInstanceAs (Decidable (i.lsc.p.valid = true →
    (i.lsc.p.load = true ∧ s.loadStallAny i = false) ∨ (i.lsc.p.store = true ∧ s.storeStallAny i = false)))

/-! ## One external access at a time -/

section OneExternal

variable {s : LsuBus} {i : LsuBusIn}

@[simp] theorem lscIn_freeze : (s.lscIn i).freeze = s.freezeDc3 i := rfl

@[simp] theorem lscIn_flush : (s.lscIn i).flush = i.lsc.flush := rfl

@[simp] theorem lscIn_p : (s.lscIn i).p = i.lsc.p := rfl

/-- The places an external access can be in once its address is in a register; a pending load is the one in
DC2. -/
def places (s : LsuBus) : List Bool :=
  [s.lsc.externalDc2, s.lsc.externalDc3, s.lsc.externalDc4, s.lsc.externalDc5, s.bus.storePending]

/-- At most one external access is under way, nothing is in DC1 behind it, and a pending load is the packet
waiting in DC2. -/
structure OneExternal (s : LsuBus) : Prop where
  gated : s.lsc.Gated
  empty : true ∈ s.places → s.lsc.pktDc1.valid = false
  alone : s.places.Pairwise fun a b => ¬(a = true ∧ b = true)
  load : s.bus.loadPending = true → s.lsc.externalDc2 = true ∧ s.lsc.pktDc2.load = true ∧
    s.lsc.excDc2 = false ∧ s.bus.loadAddrQ = s.lsc.addrDc2

theorem oneExternal_reset : OneExternal {} :=
  ⟨Lsc.gated_reset, by decide, by decide, nofun⟩

/-- A load request comes from a valid external load in DC2 without a fault. -/
theorem of_loadRequestDc2 (h : s.loadRequestDc2 i = true) :
    s.lsc.externalDc2 = true ∧ s.lsc.pktDc2.load = true ∧ s.lsc.excDc2 = false := by
  simp only [loadRequestDc2, busreqDc2, Bool.and_eq_true, Bool.not_eq_true'] at h
  simp only [Lsc.externalDc2, Bool.and_eq_true]
  tauto

/-- A pending load that is answered freezes the pipeline no longer. -/
theorem freezeDc3_of_answered (hp : s.bus.loadPending = true) (hr : i.mmioReady = true) : s.freezeDc3 i = false := by
  rw [freezeDc3, hp, hr, Bool.or_true]
  rfl

/-- A store request comes from a valid external store in DC5. -/
theorem of_storeRequestDc5 (h : s.storeRequestDc5 i = true) : s.lsc.externalDc5 = true := by
  simp only [storeRequestDc5, busreqDc5, Bool.and_eq_true] at h
  simp only [Lsc.externalDc5, Bool.and_eq_true]
  tauto

/-- Whatever decode issues, it issues it while no external access is under way. -/
theorem HonoursStall.not_full (hs : s.HonoursStall i) (hp : i.lsc.p.valid = true) :
    s.busBufferFullAny i = false := by
  rcases hs hp with ⟨-, h⟩ | ⟨-, h⟩
  · exact h
  · simp only [storeStallAny, Bool.or_eq_false_iff] at h
    exact h.2

/-- A load that stays or becomes pending freezes the pipeline. -/
theorem freeze_of_next_loadPending (h : (s.next i).bus.loadPending = true) : s.freezeDc3 i = true := by
  simp only [next, nextBus, loadClear, BusIntf.mmioValid] at h
  simp only [freezeDc3]
  grind

/-- A cycle keeps at most one external access under way, as decode honours the stall. -/
theorem OneExternal.next (h : OneExternal s) (hs : s.HonoursStall i) : OneExternal (s.next i) := by
  have hg := h.gated
  have hempty := h.empty
  have halone := h.alone
  have hload := h.load
  have hissue := hs.not_full
  have hreq := of_loadRequestDc2 (s := s) (i := i)
  have hstore := of_storeRequestDc5 (s := s) (i := i)
  have hext : s.lsc.externalDc1 (s.lscIn i) = true → s.lsc.pktDc1.valid = true := fun h =>
    (Bool.and_eq_true _ _ ▸ h).1
  simp only [busBufferFullAny, externalInPipe, Bool.or_eq_false_iff] at hissue
  refine ⟨hg.next _, ?_, ?_, fun hnext => ?_⟩
  · simp only [places, LsuBus.next, Lsc.next_externalDc2 hg, Lsc.next_externalDc3 hg, Lsc.next_externalDc4,
      Lsc.next_externalDc5, Lsc.next_validDc1 hg, nextBus, lscIn_freeze, lscIn_flush, lscIn_p] at *
    grind [freezeDc3]
  · simp only [places, LsuBus.next, Lsc.next_externalDc2 hg, Lsc.next_externalDc3 hg, Lsc.next_externalDc4,
      Lsc.next_externalDc5, nextBus, lscIn_freeze, lscIn_flush] at *
    grind [freezeDc3]
  · have hf := freeze_of_next_loadPending hnext
    obtain ⟨hpkt, haddr, hexc⟩ := Lsc.next_dc2_of_freeze (s := s.lsc) (i := s.lscIn i) hf
    simp only [LsuBus.next, Lsc.next_externalDc2 hg, hpkt, haddr, hexc, nextBus, lscIn_freeze, hf] at hnext ⊢
    grind

/-- In every run in which decode honours the stalls, every state has at most one external access. -/
theorem oneExternal_run {w : Nat → LsuBusIn} (hw : machine.Respects HonoursStall w) (n : Nat) :
    OneExternal (machine.run w n) :=
  Machine.run_invariant oneExternal_reset (fun _ _ h hs => h.next hs) hw n

end OneExternal

end LsuBus

end SocRV
