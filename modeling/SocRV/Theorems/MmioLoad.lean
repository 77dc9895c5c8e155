import SocRV.Soc.MmioLoad
import SocRV.Theorems.ExternalAccess

/-!
# The value and the error of an answered load

The value of an external load is the peripheral's answer to its own request, although it is formed in the cycle
after the answer.  The error of the answer is not: in the cycle of the answer it goes to the packet that the freeze
kept in DC3, and when the load itself is in DC3 the error is gone.  A load that gives up its request and is flushed
before it repeats it leaves its answer in the bridge for the next one.
-/

namespace SocRV

namespace MmioPath

/-- The error of an answered load is reported for that load and for nobody else: `lsu_error_pkt_dc3` is valid for
the load in DC3 exactly when its answer had an error, and for the packet in DC3 at the answer only when that has a
fault of its own. -/
def ErrorPrecise (l l' : LsuBus) (i i' : LsuBusIn) (a : Answer) : Prop :=
  (l'.errorPktDc3 i').excValid = a.error ∧ (l.errorPktDc3 i).excValid = l.ownFaultDc3 i

/-- For every interleaving of the clocks, every sequence of packets and flushes in which no given-up load is flushed
before it repeats its request, and every external load that moves from DC2 to DC3 when it is answered: at the next
core edge it is in DC3 with its address and slot, its result is the byte, half or word at its address of what the
peripheral answered to its request, and, unless it is flushed there, the error of that answer is its own exactly when
there is none; without an error nobody else gets one. -/
theorem mmio_load_exact {w : Nat → MmioTick} (hs : machine.Respects HonoursStall w)
    (hk : machine.Respects KeepsLoad w) {n k : Nat} {i : LsuBusIn} (hi : (w n).core = some i)
    (hload : (machine.run w n).LoadAnswered i) (hnone : ∀ m, n + 1 ≤ m → m < n + 1 + k → (w m).core = none)
    (i' : LsuBusIn) :
    let s := machine.run w n
    let s' := machine.run w (n + 1 + k)
    ∃ a, (performed w n).getLast? = some (⟨false, s.lsu.lsc.addrDc2, 0, 0⟩, a) ∧
    s'.lsu.lsc.pktDc3 = s.lsu.lsc.pktDc2 ∧ s'.lsu.lsc.addrDc3 = s.lsu.lsc.addrDc2 ∧
    s'.lsu.lsc.i0ValidDc3 = s.lsu.lsc.i0ValidDc2 ∧
    (s.lsu.lsc.pktDc2.OneSize → s'.lsu.lsc.resultDc3 (s'.lsu.lscIn (s'.lsuIn i')) =
      s.lsu.lsc.pktDc2.loaded s.lsu.lsc.addrDc2 a.rdata) ∧
    (i'.lsc.flush.dc3 = false →
      (ErrorPrecise s.lsu s'.lsu (s.lsuIn i) (s'.lsuIn i') a ↔ a.error = false)) ∧
    (a.error = false → (s.lsu.errorPktDc3 (s.lsuIn i)).excValid = s.lsu.ownFaultDc3 (s.lsuIn i)) := by
  intro s s'
  obtain ⟨hp, hr, hflush⟩ := hload
  have hone : LsuBus.OneExternal s.lsu := oneExternal_run hs n
  obtain ⟨c, hc, hR, hL, -⟩ := channel_of_keeps hs hk n
  have hstore : s.lsu.bus.storePending = false := by
    have halone := hone.alone
    have hext := (hone.load hp).1
    simp only [LsuBus.places] at halone
    grind
  have hreq : s.lsu.bus.mmioReq = ⟨false, s.lsu.lsc.addrDc2, 0, 0⟩ := by
    simp [BusIntf.mmioReq, hstore, (hone.load hp).2.2.2]
  have hv : s.lsu.bus.mmioValid = true := by
    rw [BusIntf.mmioValid, hp]
    rfl
  -- the bridge is ready, so it holds the answer to the request the load presents
  obtain ⟨a, rfl⟩ : ∃ a, c = .answered ⟨false, s.lsu.lsc.addrDc2, 0, 0⟩ a := by
    cases c with
    | idle => exact absurd hr (by simp [(Bridge.idle_traffic hR ⟨none, none⟩).1])
    | requested p => exact absurd hr (by simp [(Bridge.requested_traffic hR ⟨none, none⟩).1])
    | answered p a =>
      rcases hL with ⟨-, hpres⟩ | ⟨hv', -⟩
      · exact ⟨a, by rw [← hpres, hreq]⟩
      · exact absurd hv' (by simp [hv, s])
  have hlast : (performed w n).getLast? = some (⟨false, s.lsu.lsc.addrDc2, 0, 0⟩, a) := by
    have hfires := hc.2
    rw [firesOf_channelEvents] at hfires
    rw [hfires]
    simp [s]
  obtain ⟨hresp, hresp'⟩ := coreResp_of_answered (t := w n) hR hr (by simp [hi])
  obtain ⟨hlsu, hcore⟩ := run_of_no_core (w := w) (n := n + 1) (k := k) hnone
  have hnext : (machine.run w (n + 1)).lsu = s.lsu.next (s.lsuIn i) := by
    simp [Machine.run_succ, machine, next, hi, s]
  have hcoreResp : s'.bridge.coreResp = a := (congrArg BridgeCore.respSyncQ hcore).trans hresp'
  obtain ⟨hpkt, haddr, hslot, hext, hacc, hmis, hpend, hq⟩ :=
    LsuBus.next_answered (i := s.lsuIn i) hone hp hr hflush
  rw [← hnext, ← hlsu] at hpkt haddr hslot hext hacc hmis hpend hq
  have hquiet : (s'.lsu.errorPktDc3 (s'.lsuIn i')).excValid = false := by
    simp [LsuBus.errorPktDc3, LsuBus.ldBusErrorDc3, s', hacc, hmis, hpend]
  have hline : s.lsu.ldBusErrorDc3 (s.lsuIn i) = a.error := by
    have hready : (s.lsuIn i).mmioReady = true := hr
    have herror : (s.lsuIn i).mmioResp.error = a.error := congrArg Answer.error hresp
    rw [LsuBus.ldBusErrorDc3, hp, hready, herror]
    rfl
  have hspared : a.error = false → (s.lsu.errorPktDc3 (s.lsuIn i)).excValid = s.lsu.ownFaultDc3 (s.lsuIn i) := by
    intro herr
    simp [LsuBus.errorPktDc3, LsuBus.ownFaultDc3, hline, herr]
  refine ⟨a, hlast, hpkt, haddr, hslot, fun hsize => ?_, fun _ => ⟨fun h => ?_, fun h => ⟨?_, hspared h⟩⟩, hspared⟩
  · have hdata : (s'.lsu.lscIn (s'.lsuIn i')).busReadDataDc3 =
        a.rdata >>> (8 * (s.lsu.lsc.addrDc2.extractLsb' 0 2).toNat) := by
      have hq' : s'.lsu.bus.loadAddrQ = s.lsu.lsc.addrDc2 := hq
      show (s'.lsuIn i').mmioResp.rdata >>> _ = _
      rw [hq']
      exact congrArg (fun r : Answer => r.rdata >>> _) hcoreResp
    rw [Lsc.resultDc3, hdata, hext, hpkt, if_pos rfl]
    exact LsuPkt.extend_shiftRight hsize _ _
  · rw [← h.1, hquiet]
  · rw [hquiet, h]

/-- A load from memory and a load from the UART right behind it. -/
def memoryThenUart (f : LsuBusIn → MmioTick) : List MmioTick :=
  [f (issue { lwPkt with tag := 1 } 0x20000 0), f (issue { lwPkt with tag := 2 } 0x10001004 0)]

/-- The load from memory is one stage ahead of the UART load, which waits in DC2 for its answer. -/
example : ((machine.run ((memoryThenUart together).getD · (together {})) 11).lsu.lsc.pktDc2.tag,
    (machine.run ((memoryThenUart together).getD · (together {})) 11).lsu.lsc.pktDc3.tag) = (2, 1) := by
  decide +kernel

theorem mmio_load_exact_memoryThenUart :
    ((machine.run ((memoryThenUart together).getD · (together {})) 12).lsu.lsc.pktDc3.tag = 2) ∧
    ((machine.run ((memoryThenUart together).getD · (together {})) 12).lsu.errorPktDc3 {}).excValid = false := by
  have hs : machine.Respects HonoursStall ((memoryThenUart together).getD · (together {})) := by
    refine Machine.respects_getD (by decide +kernel) fun s i hi => ?_
    obtain rfl : {} = i := Option.some.inj hi
    exact nofun
  have hk : machine.Respects KeepsLoad ((memoryThenUart together).getD · (together {})) := by
    refine Machine.respects_getD (by decide +kernel) fun s i hi _ => ?_
    obtain rfl : {} = i := Option.some.inj hi
    rfl
  have hload : (machine.run ((memoryThenUart together).getD · (together {})) 11).LoadAnswered {} :=
    ⟨by decide +kernel, by decide +kernel, rfl⟩
  obtain ⟨a, ha, hpkt, -⟩ := mmio_load_exact (k := 0) hs hk rfl hload (fun m h1 h2 => absurd h1 (by omega)) {}
  refine ⟨?_, by decide +kernel⟩
  rw [hpkt]
  decide +kernel

/-- Both clocks step together and the peripheral answers with an error. -/
def failing (i : LsuBusIn) : MmioTick := ⟨some i, some ⟨true, ⟨0x55, true⟩⟩⟩

/-- The path after `n` ticks of that run. -/
def afterFailing (n : Nat) : MmioPath := machine.run ((memoryThenUart failing).getD · (failing {})) n

/-- The error of the answer to the UART load becomes an access fault of the memory load that the freeze holds in
DC3, and the UART load has none. -/
theorem mmio_error_misattributed :
    machine.Respects HonoursStall ((memoryThenUart failing).getD · (failing {})) ∧
    machine.Respects KeepsLoad ((memoryThenUart failing).getD · (failing {})) ∧
    (afterFailing 11).LoadAnswered {} ∧ (afterFailing 11).lsu.lsc.pktDc2.tag = 2 ∧
    (afterFailing 11).bridge.coreResp = ⟨0x55, true⟩ ∧ (afterFailing 11).lsu.lsc.pktDc3.tag = 1 ∧
    (afterFailing 11).lsu.errorPktDc3 ((afterFailing 11).lsuIn {}) = ⟨true, false, true, true, 0x20000⟩ ∧
    (afterFailing 11).lsu.ownFaultDc3 ((afterFailing 11).lsuIn {}) = false ∧
    (afterFailing 12).lsu.lsc.pktDc3.tag = 2 ∧ (afterFailing 12).lsu.lsc.pktDc3.valid = true ∧
    ((afterFailing 12).lsu.errorPktDc3 ((afterFailing 12).lsuIn {})).excValid = false := by
  refine ⟨Machine.respects_getD (by decide +kernel) fun s i hi => ?_,
    Machine.respects_getD (by decide +kernel) fun s i hi _ => ?_, ⟨by decide +kernel, by decide +kernel, rfl⟩, ?_⟩
  · obtain rfl : {} = i := Option.some.inj hi
    exact nofun
  · obtain rfl : {} = i := Option.some.inj hi
    rfl
  · decide +kernel

/-- A UART load whose request has just reached the bridge is flushed in two consecutive cycles; a load of the timer
follows. -/
def flushedLoadThenLoad : List MmioTick :=
  [together (issue { lwPkt with tag := 1 } 0x10001004 0), together {}, together {}, together flushLower,
    together flushLower, together {}, together (issue { lwPkt with tag := 2 } 0x10000000 0)]

/-- The path after `n` ticks of that run. -/
def afterFlushed (n : Nat) : MmioPath := machine.run (flushedLoadThenLoad.getD · (together {})) n

/-- No answer carries an error, and the load of the timer returns what the UART answered to the flushed load: the timer
is never asked. -/
theorem mmio_load_misanswered :
    machine.Respects HonoursStall (flushedLoadThenLoad.getD · (together {})) ∧
    (afterFlushed 10).LoadAnswered {} ∧ (afterFlushed 10).lsu.lsc.pktDc2.tag = 2 ∧
    (afterFlushed 11).lsu.lsc.pktDc3.tag = 2 ∧ (afterFlushed 11).lsu.lsc.addrDc3 = 0x10000000 ∧
    (afterFlushed 11).lsu.lsc.resultDc3 ((afterFlushed 11).lsu.lscIn ((afterFlushed 11).lsuIn {})) = 0x55 ∧
    performed (flushedLoadThenLoad.getD · (together {})) 11 = [(⟨false, 0x10001004, 0, 0⟩, ⟨0x55, false⟩)] := by
  refine ⟨Machine.respects_getD (by decide +kernel) fun s i hi => ?_, ⟨by decide +kernel, by decide +kernel, rfl⟩, ?_⟩
  · obtain rfl : {} = i := Option.some.inj hi
    exact nofun
  · decide +kernel

end MmioPath

end SocRV
