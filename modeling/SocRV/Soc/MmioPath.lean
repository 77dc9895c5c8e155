import SocRV.Lsu.BusIntf

/-!
# From the load/store unit to the peripherals

`soc_top` wires the `lsu_mmio` bus of the core to the core side of the clock bridge.  The composition steps by
ticks: a core edge advances the load/store unit and the core side of the bridge together, a peripheral edge
the other side of the bridge.
-/

namespace SocRV

/-- The load/store unit and the clock bridge. -/
structure MmioPath where
  lsu : LsuBus := {}
  bridge : Bridge := {}
  deriving DecidableEq, Repr

/-- One instant with a clock edge: the inputs of the load/store unit at a core edge, the peripheral's answer at
a peripheral edge. -/
structure MmioTick where
  core : Option LsuBusIn := none
  periph : Option PeriphIn := none
  deriving DecidableEq, Repr

namespace MmioPath

/-- What the bridge gives the load/store unit in a core cycle. -/
def lsuIn (s : MmioPath) (i : LsuBusIn) : LsuBusIn :=
  { i with mmioReady := s.bridge.coreReqReady, mmioResp := s.bridge.coreResp }

/-- What the load/store unit gives the bridge in a core cycle. -/
def coreIn (s : MmioPath) : CoreIn := ⟨s.lsu.bus.mmioValid, s.lsu.bus.mmioReq⟩

/-- The tick as the bridge sees it. -/
def bridgeTick (s : MmioPath) (t : MmioTick) : Tick := ⟨t.core.map fun _ => s.coreIn, t.periph⟩

/-- The registers after a tick. -/
def next (s : MmioPath) (t : MmioTick) : MmioPath where
  lsu := t.core.elim s.lsu fun i => s.lsu.next (s.lsuIn i)
  bridge := s.bridge.next (s.bridgeTick t)

/-- The path from reset. -/
def machine : Machine MmioPath MmioTick := ⟨{}, next⟩

/-- Decode honours the stalls of the load/store unit at every core edge. -/
def HonoursStall (s : MmioPath) (t : MmioTick) : Prop :=
  ∀ i ∈ t.core, s.lsu.HonoursStall (s.lsuIn i)

instance (s : MmioPath) (t : MmioTick) : Decidable (s.HonoursStall t) :=
  inferInstanceAs (Decidable (∀ i ∈ t.core, s.lsu.HonoursStall (s.lsuIn i)))

/-- A load whose request the bridge still holds was given up, and nothing is presented. -/
def abandoned (s : MmioPath) : Bool := s.bridge.core.reqBusyQ && !s.lsu.bus.mmioValid

/-- A load that was given up is never flushed out of DC2 before it has repeated its request. -/
def KeepsLoad (s : MmioPath) (t : MmioTick) : Prop :=
  ∀ i ∈ t.core, s.abandoned = true → i.lsc.flush.dc2Up = false

instance (s : MmioPath) (t : MmioTick) : Decidable (s.KeepsLoad t) :=
  inferInstanceAs (Decidable (∀ i ∈ t.core, s.abandoned = true → i.lsc.flush.dc2Up = false))

/-! ## The traffic -/

/-- The store that sets `store_pending` in a tick. -/
def storeSetAt (s : MmioPath) (t : MmioTick) : List Payload :=
  t.core.elim [] fun i =>
    if !s.lsu.bus.storePending && s.lsu.storeRequestDc5 (s.lsuIn i) then [s.lsu.storeReqDc5] else []

/-- The stores that set `store_pending` in the first `n` ticks. -/
def storesSet (w : Nat → MmioTick) (n : Nat) : List Payload := machine.events storeSetAt w n

/-- The requests the peripheral performed in the first `n` ticks, each with its answer. -/
def performed (w : Nat → MmioTick) (n : Nat) : List (Payload × Answer) :=
  machine.events (fun s t => s.bridge.firedAt (s.bridgeTick t)) w n

/-- The requests presented in the cycles with `lsu_mmio_valid && lsu_mmio_ready` of the first `n` ticks, each
with the answer seen there. -/
def answeredTo (w : Nat → MmioTick) (n : Nat) : List (Payload × Answer) :=
  machine.events (fun s t => s.bridge.completedAt (s.bridgeTick t)) w n

/-- The stores among performed requests. -/
def writesOf (l : List (Payload × Answer)) : List Payload := (l.map Prod.fst).filter Payload.write

/-- The access is what the load/store unit presents, or a load in DC2 that will present it again. -/
def Waits (l : LsuBus) (p : Payload) : Prop :=
  (l.bus.mmioValid = true ∧ l.bus.mmioReq = p) ∨
    (l.bus.mmioValid = false ∧ p = ⟨false, l.lsc.addrDc2, 0, 0⟩ ∧ l.lsc.externalDc2 = true ∧
      l.lsc.pktDc2.load = true ∧ l.lsc.excDc2 = false)

/-- How the load/store unit stands to the request in the bridge. -/
def Linked (l : LsuBus) : Channel Payload Answer → Prop
  | .idle => True
  | .requested p => Waits l p
  | .answered p _ => Waits l p

/-- The pending store that the peripheral has not performed yet. -/
def unperformed (l : LsuBus) : Channel Payload Answer → List Payload
  | .answered _ _ => []
  | _ => if l.bus.storePending then [l.bus.mmioReq] else []

end MmioPath

/-! ## One core cycle of the bus interface -/

namespace LsuBus

variable {s : LsuBus} {i : LsuBusIn}

/-- A pending store keeps its request until it is answered. -/
theorem next_store_kept (hp : s.bus.storePending = true) (hr : i.mmioReady = false) :
    (s.next i).bus.storePending = true ∧ (s.next i).bus.mmioReq = s.bus.mmioReq := by
  simp [next, nextBus, BusIntf.mmioReq, hp, hr]

/-- A committed store becomes pending with its own request. -/
theorem next_store_set (hp : s.bus.storePending = false) (hr : s.storeRequestDc5 i = true) :
    (s.next i).bus.storePending = true ∧ (s.next i).bus.mmioReq = s.storeReqDc5 := by
  simp [next, nextBus, BusIntf.mmioReq, hp, hr, storeReqDc5]

/-- No store becomes pending without a committed store. -/
theorem next_store_none (hp : s.bus.storePending = false) (hr : s.storeRequestDc5 i = false) :
    (s.next i).bus.storePending = false := by
  simp [next, nextBus, hp, hr]

end LsuBus

namespace MmioPath

open LsuBus

variable {l : LsuBus} {i : LsuBusIn} {p : Payload}

/-- Behind a load that waits for its answer no store commits. -/
theorem Waits.quiet (h : Waits l p) (hl : OneExternal l) (hp : l.bus.storePending = false) :
    p.write = false ∧ l.storeRequestDc5 i = false := by
  have halone := hl.alone
  have hload := hl.load
  have hstore := of_storeRequestDc5 (s := l) (i := i)
  simp only [places] at halone
  rcases h with ⟨hv, rfl⟩ | ⟨hv, rfl, hext, -⟩
  · simp only [BusIntf.mmioValid, hp, Bool.or_false] at hv
    refine ⟨by simp [BusIntf.mmioReq, hp], ?_⟩
    grind
  · refine ⟨rfl, ?_⟩
    grind

/-- A pending load that is not answered waits on: it stays pending, or it was given up and the freeze keeps it
in DC2. -/
theorem Waits.next_pending (h : Waits l p) (hl : OneExternal l) (hp : l.bus.storePending = false)
    (hload : l.bus.loadPending = true) (hr : i.mmioReady = false) : Waits (l.next i) p := by
  have hv : l.bus.mmioValid = true := by simp [BusIntf.mmioValid, hload]
  obtain ⟨hext, hpkt, hexc, haddr⟩ := hl.load hload
  have hf : l.freezeDc3 i = true := by simp [freezeDc3, hload, hr]
  obtain ⟨hpkt', haddr', hexc'⟩ := Lsc.next_dc2_of_freeze (s := l.lsc) (i := l.lscIn i) hf
  have hp' := next_store_none hp (h.quiet (i := i) hl hp).2
  have hq : (l.next i).bus.loadAddrQ = l.bus.loadAddrQ := by simp [LsuBus.next, nextBus, hload]
  obtain rfl : ⟨false, l.bus.loadAddrQ, 0, 0⟩ = p := by
    rcases h with ⟨-, rfl⟩ | ⟨hv', -⟩
    · simp [BusIntf.mmioReq, hp]
    · simp [hv] at hv'
  cases hn : (l.next i).bus.loadPending with
  | true => exact .inl ⟨by simp [BusIntf.mmioValid, hn], by simp [BusIntf.mmioReq, hp', hq]⟩
  | false =>
    refine .inr ⟨by simp [BusIntf.mmioValid, hn, hp'], ?_, ?_, ?_, ?_⟩
    · rw [haddr]
      exact congrArg (Payload.mk false · 0 0) haddr'.symm
    · simp [LsuBus.next, Lsc.next_externalDc2 hl.gated, hf, hext]
    · exact (congrArg LsuPkt.load hpkt').trans hpkt
    · exact hexc'.trans hexc

/-- A load that was given up repeats its request in the next cycle unless it is flushed. -/
theorem Waits.next_abandoned (h : Waits l p) (hl : OneExternal l) (hv : l.bus.mmioValid = false)
    (hk : i.lsc.flush.dc2Up = false) : Waits (l.next i) p := by
  obtain ⟨hload, hp⟩ : l.bus.loadPending = false ∧ l.bus.storePending = false := by
    simpa [BusIntf.mmioValid] using hv
  have hp' := next_store_none hp (h.quiet (i := i) hl hp).2
  rcases h with ⟨hv', -⟩ | ⟨-, rfl, hext, hpkt, hexc⟩
  · simp [hv] at hv'
  · have hreq : l.loadRequestDc2 i = true := by
      simp only [Lsc.externalDc2, Bool.and_eq_true] at hext
      simp [loadRequestDc2, busreqDc2, hext, hpkt, hexc, hk]
    have hload' : (l.next i).bus.loadPending = true := by simp [LsuBus.next, nextBus, hload, hreq]
    have hq : (l.next i).bus.loadAddrQ = l.lsc.addrDc2 := by simp [LsuBus.next, nextBus, hload, hreq]
    exact .inl ⟨by simp [BusIntf.mmioValid, hload'], by simp [BusIntf.mmioReq, hp', hq]⟩

/-- An access that is not answered waits on. -/
theorem Waits.next (h : Waits l p) (hl : OneExternal l)
    (hr : l.bus.mmioValid = true → i.mmioReady = false)
    (hk : l.bus.mmioValid = false → i.lsc.flush.dc2Up = false) : Waits (l.next i) p := by
  cases hv : l.bus.mmioValid with
  | false => exact h.next_abandoned hl hv (hk hv)
  | true =>
    cases hp : l.bus.storePending with
    | false =>
      have hload : l.bus.loadPending = true := by simpa [BusIntf.mmioValid, hp] using hv
      exact h.next_pending hl hp hload (hr hv)
    | true =>
      obtain ⟨hp', hreq⟩ := next_store_kept hp (hr hv)
      rcases h with ⟨-, rfl⟩ | ⟨hv', -⟩
      · exact .inl ⟨by simp [BusIntf.mmioValid, hp'], hreq⟩
      · simp [hv] at hv'

/-! ## One tick of the path -/

variable {s : MmioPath} {t : MmioTick} {c : Channel Payload Answer}

/-- What the load/store unit presents while the bridge holds a request is that request. -/
theorem presents_of_linked (hR : s.bridge.Refines c) (hL : Linked s.lsu c) :
    s.bridge.CorePresents (s.bridgeTick t) := by
  intro i hi hbusy hv
  obtain ⟨-, -, rfl⟩ : ∃ i', t.core = some i' ∧ s.coreIn = i := by simpa [bridgeTick] using hi
  cases c with
  | idle => simp [hR.1] at hbusy
  | requested p =>
    rcases hL with ⟨-, h⟩ | ⟨h, -⟩
    · exact h.trans hR.2.1.symm
    · simp [coreIn, h] at hv
  | answered p a =>
    rcases hL with ⟨-, h⟩ | ⟨h, -⟩
    · exact h.trans hR.2.1.symm
    · simp [coreIn, h] at hv

/-- The pending store, if there is one. -/
def pendingStore (l : LsuBus) : List Payload := if l.bus.storePending then [l.bus.mmioReq] else []

/-- Without an answer the pending store stays, and a committed store becomes the pending one. -/
theorem pendingStore_next (hr : s.bridge.coreReqReady = false) :
    pendingStore s.lsu ++ s.storeSetAt t = pendingStore (s.next t).lsu := by
  cases hc : t.core with
  | none => simp [storeSetAt, next, hc]
  | some i =>
    cases hp : s.lsu.bus.storePending with
    | true =>
      obtain ⟨hp', hreq⟩ := next_store_kept (i := s.lsuIn i) hp hr
      simp [pendingStore, storeSetAt, next, hc, hp, hp', hreq]
    | false =>
      cases hst : s.lsu.storeRequestDc5 (s.lsuIn i) with
      | true =>
        obtain ⟨hp', hreq⟩ := next_store_set hp hst
        simp [pendingStore, storeSetAt, next, hc, hp, hst, hp', hreq]
      | false => simp [pendingStore, storeSetAt, next, hc, hp, hst, next_store_none hp hst]

/-- While the bridge holds an access no further store sets `store_pending`. -/
theorem storeSetAt_of_waits (h : Waits s.lsu p) (hl : OneExternal s.lsu) : s.storeSetAt t = [] := by
  cases hc : t.core with
  | none => simp [storeSetAt, hc]
  | some i =>
    cases hp : s.lsu.bus.storePending with
    | true => simp [storeSetAt, hc, hp]
    | false => simp [storeSetAt, hc, (h.quiet (i := s.lsuIn i) hl hp).2]

/-- The pending store is the request in the bridge, and a load there is not a store. -/
theorem pendingStore_of_waits (h : Waits s.lsu p) (hl : OneExternal s.lsu) (a : Answer) :
    pendingStore s.lsu = writesOf [(p, a)] := by
  cases hp : s.lsu.bus.storePending with
  | true =>
    rcases h with ⟨-, rfl⟩ | ⟨hv, -⟩
    · simp [pendingStore, writesOf, hp, BusIntf.mmioReq]
    · simp [BusIntf.mmioValid, hp] at hv
  | false => simp [pendingStore, writesOf, hp, (h.quiet (i := {}) hl hp).1]

/-- An access that is completed leaves no pending store. -/
theorem pendingStore_of_completes {i : LsuBusIn} (h : Waits s.lsu p) (hl : OneExternal s.lsu)
    (hv : s.lsu.bus.mmioValid = true) (hr : s.bridge.coreReqReady = true) :
    pendingStore (s.lsu.next (s.lsuIn i)) = [] := by
  cases hp : s.lsu.bus.storePending with
  | true => simp [pendingStore, LsuBus.next, nextBus, hp, hv, lsuIn, hr]
  | false => simp [pendingStore, next_store_none hp (h.quiet (i := s.lsuIn i) hl hp).2]

/-- The access in the bridge waits on through a tick in which it is not completed. -/
theorem Waits.tick (h : Waits s.lsu p) (hl : OneExternal s.lsu) (hk : s.KeepsLoad t)
    (hbusy : s.bridge.core.reqBusyQ = true)
    (hr : t.core.isSome = true → s.lsu.bus.mmioValid = true → s.bridge.coreReqReady = false) :
    Waits (s.next t).lsu p := by
  cases hc : t.core with
  | none => simpa [MmioPath.next, hc] using h
  | some i =>
    have hw := h.next (i := s.lsuIn i) hl (hr (by simp [hc])) fun hv => hk i hc (by simp [abandoned, hbusy, hv])
    simpa [MmioPath.next, hc] using hw

/-- What one tick does: the bridge takes a step of the channel, the load/store unit stays linked to it, and
every store set is performed or still pending. -/
structure Advance (s : MmioPath) (t : MmioTick) (c c' : Channel Payload Answer) : Prop where
  exec : Machine.exec Channel.step c (s.bridge.eventsAt (s.bridgeTick t)) = some c'
  refines : (s.next t).bridge.Refines c'
  linked : Linked (s.next t).lsu c'
  stores : unperformed s.lsu c ++ s.storeSetAt t =
    writesOf (s.bridge.firedAt (s.bridgeTick t)) ++ unperformed (s.next t).lsu c'

/-- An idle bridge accepts what is presented at a core edge. -/
theorem acceptedAt_bridgeTick (hbusy : s.bridge.core.reqBusyQ = false) :
    s.bridge.acceptedAt (s.bridgeTick t) =
      if t.core.isSome && s.lsu.bus.mmioValid then [s.lsu.bus.mmioReq] else [] := by
  cases hc : t.core <;> simp [Bridge.acceptedAt, Bridge.accepts, bridgeTick, coreIn, hc, hbusy]

/-- A bridge with an answer completes what is presented at a core edge. -/
theorem completedAt_bridgeTick (hbusy : s.bridge.core.reqBusyQ = true) :
    s.bridge.completedAt (s.bridgeTick t) =
      if t.core.isSome && (s.bridge.coreReqReady && s.lsu.bus.mmioValid) then
        [(s.lsu.bus.mmioReq, s.bridge.coreResp)] else [] := by
  cases hc : t.core <;> simp [Bridge.completedAt, Bridge.completes, bridgeTick, coreIn, hc, hbusy]

/-- An idle channel stays so, or takes the request up. -/
theorem advance_idle (hl : OneExternal s.lsu) (hR : s.bridge.Refines .idle) : ∃ c', Advance s t .idle c' := by
  obtain ⟨c', hexec, hR'⟩ := Bridge.refines_next hR (presents_of_linked (t := t) hR trivial)
  obtain ⟨hready, hcomp, hfired⟩ := Bridge.idle_traffic hR (s.bridgeTick t)
  have hstores := pendingStore_next (t := t) hready
  have hev := hexec
  rw [Bridge.eventsAt, hcomp, hfired, acceptedAt_bridgeTick hR.1] at hev
  cases hacc : t.core.isSome && s.lsu.bus.mmioValid with
  | false =>
    obtain rfl : .idle = c' := by simpa [hacc, Machine.exec] using hev
    exact ⟨_, hexec, hR', trivial, by simpa [hfired, writesOf, unperformed, pendingStore] using hstores⟩
  | true =>
    obtain rfl : .requested s.lsu.bus.mmioReq = c' := by simpa [hacc, Machine.exec, Channel.step] using hev
    obtain ⟨hc, hv⟩ := Bool.and_eq_true_iff.mp hacc
    obtain ⟨i, hi⟩ := Option.isSome_iff_exists.mp hc
    have hw : Waits s.lsu s.lsu.bus.mmioReq := .inl ⟨hv, rfl⟩
    have hw' := hw.next (i := s.lsuIn i) hl (fun _ => hready) (fun h => by simp [hv] at h)
    refine ⟨_, hexec, hR', by simpa [Linked, MmioPath.next, hi] using hw', ?_⟩
    simpa [hfired, writesOf, unperformed, pendingStore] using hstores

/-- A request on its way waits, or is performed. -/
theorem advance_requested (hl : OneExternal s.lsu) (hk : s.KeepsLoad t) (hR : s.bridge.Refines (.requested p))
    (hL : Waits s.lsu p) : ∃ c', Advance s t (.requested p) c' := by
  obtain ⟨c', hexec, hR'⟩ := Bridge.refines_next hR (presents_of_linked (t := t) hR hL)
  obtain ⟨hready, hacc, hcomp, hfired⟩ := Bridge.requested_traffic hR (s.bridgeTick t)
  have hw := hL.tick hl hk hR.1 fun _ _ => hready
  have hev := hexec
  rw [Bridge.eventsAt, hacc, hcomp] at hev
  rcases hfired with hfired | ⟨a, hfired⟩
  · obtain rfl : .requested p = c' := by simpa [hfired, Machine.exec] using hev
    have hstores := pendingStore_next (t := t) hready
    exact ⟨_, hexec, hR', hw, by simpa [hfired, writesOf, unperformed, pendingStore] using hstores⟩
  · obtain rfl : .answered p a = c' := by simpa [hfired, Machine.exec, Channel.step] using hev
    refine ⟨_, hexec, hR', hw, ?_⟩
    rw [hfired, ← pendingStore_of_waits hL hl a, storeSetAt_of_waits hL hl]
    rfl

/-- An answer on its way waits, or completes the request. -/
theorem advance_answered {a : Answer} (hl : OneExternal s.lsu) (hk : s.KeepsLoad t)
    (hR : s.bridge.Refines (.answered p a)) (hL : Waits s.lsu p) : ∃ c', Advance s t (.answered p a) c' := by
  obtain ⟨c', hexec, hR'⟩ := Bridge.refines_next hR (presents_of_linked (t := t) hR hL)
  obtain ⟨hacc, hfired⟩ := Bridge.answered_traffic hR (s.bridgeTick t)
  have hset := storeSetAt_of_waits (t := t) hL hl
  have hev := hexec
  rw [Bridge.eventsAt, hacc, hfired, completedAt_bridgeTick hR.1] at hev
  cases hcomp : t.core.isSome && (s.bridge.coreReqReady && s.lsu.bus.mmioValid) with
  | false =>
    obtain rfl : .answered p a = c' := by simpa [hcomp, Machine.exec] using hev
    have hw := hL.tick hl hk hR.1 fun hc hv => by simpa [hc, hv] using hcomp
    exact ⟨_, hexec, hR', hw, by simp [unperformed, hset, hfired, writesOf]⟩
  | true =>
    have hidle : c' = .idle := by
      simp only [hcomp, if_true, List.map_cons, List.map_nil, List.nil_append, List.append_nil, Machine.exec,
        Channel.step] at hev
      grind
    subst hidle
    simp only [Bool.and_eq_true] at hcomp
    obtain ⟨i, hi⟩ := Option.isSome_iff_exists.mp hcomp.1
    have hnone := pendingStore_of_completes (i := i) hL hl hcomp.2.2 hcomp.2.1
    refine ⟨_, hexec, hR', trivial, ?_⟩
    simpa [unperformed, hset, hfired, writesOf, MmioPath.next, hi, pendingStore] using hnone

/-- Every tick in which decode honours the stalls and no given-up load is flushed advances the path. -/
theorem advance (hl : OneExternal s.lsu) (hk : s.KeepsLoad t) (hR : s.bridge.Refines c) (hL : Linked s.lsu c) :
    ∃ c', Advance s t c c' := by
  cases c with
  | idle => exact advance_idle hl hR
  | requested p => exact advance_requested hl hk hR hL
  | answered p a => exact advance_answered hl hk hR hL

/-! ## Whole runs -/

/-- The channel events of the first `n` ticks. -/
def channelEvents (w : Nat → MmioTick) (n : Nat) : List (ChannelEvent Payload Answer) :=
  machine.events (fun s t => s.bridge.eventsAt (s.bridgeTick t)) w n

@[simp] theorem firesOf_channelEvents (w : Nat → MmioTick) (n : Nat) :
    Channel.firesOf (channelEvents w n) = performed w n := by
  rw [Channel.firesOf, channelEvents, Machine.events_filterMap]
  exact congrArg (machine.events · w n) (funext₂ fun _ _ => Bridge.firesOf_eventsAt _ _)

@[simp] theorem completesOf_channelEvents (w : Nat → MmioTick) (n : Nat) :
    Channel.completesOf (channelEvents w n) = answeredTo w n := by
  rw [Channel.completesOf, channelEvents, Machine.events_filterMap]
  exact congrArg (machine.events · w n) (funext₂ fun _ _ => Bridge.completesOf_eventsAt _ _)

/-- In every run that honours the stall at most one external access is under way. -/
theorem oneExternal_run {w : Nat → MmioTick} (hs : machine.Respects HonoursStall w) (n : Nat) :
    OneExternal (machine.run w n).lsu := by
  refine Machine.run_invariant (I := fun s => OneExternal s.lsu) oneExternal_reset (fun s t h hs => ?_) hs n
  cases hc : t.core with
  | none => simpa [machine, next, hc] using h
  | some i => simpa [machine, next, hc] using h.next (hs i hc)

/-- In a run in which no given-up load is flushed, the traffic, the bridge and the load/store unit agree with
one channel state, and the stores set are those performed and the one still to be performed. -/
theorem channel_of_keeps {w : Nat → MmioTick} (hs : machine.Respects HonoursStall w)
    (hk : machine.Respects KeepsLoad w) (n : Nat) :
    ∃ c, Channel.Consistent (channelEvents w n) c ∧ (machine.run w n).bridge.Refines c ∧
      Linked (machine.run w n).lsu c ∧
      storesSet w n = writesOf (performed w n) ++ unperformed (machine.run w n).lsu c := by
  suffices h : ∃ c, Machine.exec Channel.step .idle (channelEvents w n) = some c ∧
      (machine.run w n).bridge.Refines c ∧ Linked (machine.run w n).lsu c ∧
      storesSet w n = writesOf (performed w n) ++ unperformed (machine.run w n).lsu c by
    obtain ⟨c, hexec, h⟩ := h
    exact ⟨c, Channel.consistent_exec hexec, h⟩
  induction n with
  | zero => exact ⟨.idle, rfl, Bridge.refines_reset, trivial, rfl⟩
  | succ n ih =>
    obtain ⟨c, hexec, hR, hL, hst⟩ := ih
    obtain ⟨c', h⟩ := advance (oneExternal_run hs n) (hk n) hR hL
    refine ⟨c', ?_, h.refines, h.linked, ?_⟩
    · rw [channelEvents, Machine.events, Machine.exec_append, ← channelEvents, hexec]
      exact h.exec
    · have hset : storesSet w (n + 1) = storesSet w n ++ (machine.run w n).storeSetAt (w n) := rfl
      have hperf : performed w (n + 1) =
          performed w n ++ (machine.run w n).bridge.firedAt ((machine.run w n).bridgeTick (w n)) := rfl
      rw [hset, hst, List.append_assoc, h.stores, hperf, ← List.append_assoc]
      simp only [writesOf, List.map_append, List.filter_append]
      rfl

end MmioPath

end SocRV
