import SocRV.Soc.MmioPath

/-!
# External accesses

What holds of the accesses that leave the core: the clock bridge delivers every request once and in order, the
load/store unit has at most one external access under way, and the two together answer every access with the
peripheral's own answer and perform every store once, as long as no load is flushed between giving up its
request and repeating it.
-/

namespace SocRV

open Machine

/-! ## The clock bridge -/

/-- For every interleaving of the two clocks and every peripheral, a core that holds its requests sees them
performed exactly once, in order and one at a time, and each completed with its own answer. -/
theorem bridge_delivers_once {w : Nat → Tick} (hold : Bridge.machine.Respects Bridge.CoreHolds w) (n : Nat) :
    ((Bridge.fired w n).map Prod.fst = Bridge.accepted w n ∨
      (Bridge.fired w n).map Prod.fst = (Bridge.accepted w n).dropLast) ∧
    (Bridge.accepted w n).length ≤ (Bridge.completed w n).length + 1 ∧
    Bridge.completed w n <+: Bridge.fired w n := by
  obtain ⟨c, hc, -⟩ := Bridge.channel_of_holds hold n
  simpa using And.intro hc.fires (And.intro hc.outstanding hc.completes)

/-- A core that presents one request again and again, with both clocks in step and a peripheral that is
always ready. -/
def steadyTick : Tick := ⟨some ⟨true, ⟨true, 0x10001000, 0x41, 1⟩⟩, some ⟨true, ⟨7, false⟩⟩⟩

/-- A core that presents its request in every tick holds it. -/
theorem steadyTick_holds : Bridge.machine.Respects Bridge.CoreHolds fun _ => steadyTick := by
  have hinv : ∀ n, (Bridge.machine.run (fun _ => steadyTick) n).core.reqBusyQ = true →
      (Bridge.machine.run (fun _ => steadyTick) n).core.reqQ = ⟨true, 0x10001000, 0x41, 1⟩ := by
    intro n
    refine Machine.run_invariant (E := fun _ t => t = steadyTick)
      (I := fun b : Bridge => b.core.reqBusyQ = true → b.core.reqQ = ⟨true, 0x10001000, 0x41, 1⟩)
      (by simp [Bridge.machine]) ?_ (fun _ => rfl) n
    rintro b _ hb rfl
    simp only [Bridge.machine, Bridge.next, steadyTick, Option.elim_some, Bridge.coreEdge_reqQ,
      Bridge.coreEdge_reqBusyQ]
    grind
  intro n i hi hbusy
  obtain rfl : ⟨true, ⟨true, 0x10001000, 0x41, 1⟩⟩ = i := by simpa [steadyTick] using hi
  exact ⟨rfl, (hinv n hbusy).symm⟩

theorem bridge_delivers_once_steady :
    Bridge.accepted (fun _ => steadyTick) 12 ≠ [] ∧
    ((Bridge.fired (fun _ => steadyTick) 12).map Prod.fst = Bridge.accepted (fun _ => steadyTick) 12 ∨
      (Bridge.fired (fun _ => steadyTick) 12).map Prod.fst =
        (Bridge.accepted (fun _ => steadyTick) 12).dropLast) ∧
    (Bridge.accepted (fun _ => steadyTick) 12).length ≤ (Bridge.completed (fun _ => steadyTick) 12).length + 1 ∧
    Bridge.completed (fun _ => steadyTick) 12 <+: Bridge.fired (fun _ => steadyTick) 12 :=
  ⟨by decide +kernel, bridge_delivers_once steadyTick_holds 12⟩

/-! ## One external access at a time -/

/-- In every run in which decode honours the stalls, a load and a store are never pending together, a pending
load is the one in DC2 and no other external packet is in the pipeline, no external packet is in the pipeline
behind a pending store, and every committed external store becomes pending with its own request and stays so
until the bus answers it. -/
theorem one_external_access {w : Nat → LsuBusIn} (hw : LsuBus.machine.Respects LsuBus.HonoursStall w) (n : Nat) :
    let s := LsuBus.machine.run w n
    let s' := LsuBus.machine.run w (n + 1)
    ¬(s.bus.loadPending = true ∧ s.bus.storePending = true) ∧
    (s.bus.loadPending = true → s.lsc.externalDc2 = true ∧ s.lsc.pktDc2.load = true ∧
      s.lsc.externalDc1 (s.lscIn (w n)) = false ∧ s.lsc.externalDc3 = false ∧ s.lsc.externalDc4 = false ∧
      s.lsc.externalDc5 = false) ∧
    (s.bus.storePending = true → s.externalInPipe (w n) = false) ∧
    (s.storeRequestDc5 (w n) = true → s.bus.loadPending = false ∧ s.bus.storePending = false ∧
      s'.bus.storePending = true ∧ s'.bus.mmioReq = s.storeReqDc5) ∧
    (s.bus.storePending = true → (w n).mmioReady = false →
      s'.bus.storePending = true ∧ s'.bus.mmioReq = s.bus.mmioReq) := by
  intro s s'
  have hone : LsuBus.OneExternal s := LsuBus.oneExternal_run hw n
  have hempty := hone.empty
  have halone := hone.alone
  have hload := hone.load
  have hreq := LsuBus.of_storeRequestDc5 (s := s) (i := w n)
  have hdc1 : s.lsc.pktDc1.valid = false → s.lsc.externalDc1 (s.lscIn (w n)) = false := fun h => by
    simp [Lsc.externalDc1, h]
  simp only [LsuBus.places] at hempty halone
  refine ⟨by grind, by grind, fun hp => ?_, fun hr => ?_, fun hp hr => LsuBus.next_store_kept hp hr⟩
  · simp only [LsuBus.externalInPipe, Bool.or_eq_false_iff]
    grind
  · have hp : s.bus.loadPending = false ∧ s.bus.storePending = false := by grind
    exact ⟨hp.1, hp.2, LsuBus.next_store_set hp.2 hr⟩

/-- A word load and a word store as decode issues them. -/
def lwPkt : LsuPkt := { word := true, load := true, valid := true }

@[inherit_doc lwPkt]
def swPkt : LsuPkt := { word := true, store := true, valid := true }

/-- A core cycle in which decode issues a packet for an address. -/
def issue (p : LsuPkt) (addr data : BitVec 32) : LsuBusIn := { lsc := { p := p, rs1D := addr, rs2D := data } }

/-- A core cycle in which the bus answers. -/
def answer (rdata : BitVec 32) : LsuBusIn := { mmioReady := true, mmioResp := ⟨rdata, false⟩ }

/-- A load from the UART that is answered after a wait, then a store to it. -/
def loadThenStore : List LsuBusIn :=
  [issue lwPkt 0x10001004 0, {}, {}, {}, answer 0x55, {}, {}, {}, issue swPkt 0x10001000 0x41, {}, {}, {}, {}, {},
    {}, answer 0]

/-- The load is pending until the bus answers it. -/
example : (List.range 6).map (fun n => (LsuBus.machine.run (loadThenStore.getD · {}) n).bus.loadPending) =
    [false, false, false, true, true, false] := by
  decide +kernel

/-- The run of a load and a store honours the stall. -/
theorem loadThenStore_honours : LsuBus.machine.Respects LsuBus.HonoursStall (loadThenStore.getD · {}) :=
  Machine.respects_getD (by decide +kernel) fun _ => nofun

theorem one_external_access_loadThenStore :
    (LsuBus.machine.run (loadThenStore.getD · {}) 13).storeRequestDc5 {} = true ∧
    (LsuBus.machine.run (loadThenStore.getD · {}) 14).bus.storePending = true ∧
    (LsuBus.machine.run (loadThenStore.getD · {}) 13).bus.loadPending = false :=
  have hset : (LsuBus.machine.run (loadThenStore.getD · {}) 13).storeRequestDc5 {} = true := by decide +kernel
  have h := (one_external_access loadThenStore_honours 13).2.2.2.1 hset
  ⟨hset, h.2.2.1, h.1⟩

/-! ## The load/store unit and the clock bridge together -/

/-- For every interleaving of the clocks, every sequence of packets and flushes in which no given-up load is
flushed before it repeats its request: the bus interface sees the peripheral's answer to the request it
presents, and the stores that set `store_pending` are those the peripheral performed, in order and once each,
but for the one still pending. -/
theorem mmio_path_exact {w : Nat → MmioTick} (hs : MmioPath.machine.Respects MmioPath.HonoursStall w)
    (hk : MmioPath.machine.Respects MmioPath.KeepsLoad w) (n : Nat) :
    MmioPath.answeredTo w n <+: MmioPath.performed w n ∧
    (MmioPath.storesSet w n = MmioPath.writesOf (MmioPath.performed w n) ∨
      (MmioPath.machine.run w n).lsu.bus.storePending = true ∧
      MmioPath.storesSet w n =
        MmioPath.writesOf (MmioPath.performed w n) ++ [(MmioPath.machine.run w n).lsu.bus.mmioReq]) := by
  obtain ⟨c, hc, -, -, hst⟩ := MmioPath.channel_of_keeps hs hk n
  refine ⟨by simpa using hc.completes, ?_⟩
  cases c with
  | answered p a => exact .inl (by simpa [MmioPath.unperformed] using hst)
  | idle | requested =>
    cases hp : (MmioPath.machine.run w n).lsu.bus.storePending with
    | false => exact .inl (by simpa [MmioPath.unperformed, hp] using hst)
    | true => exact .inr ⟨rfl, by simpa [MmioPath.unperformed, hp] using hst⟩

/-- Both clocks step together and the peripheral answers at once. -/
def together (i : LsuBusIn) : MmioTick := ⟨some i, some ⟨true, ⟨0x55, false⟩⟩⟩

/-- A UART load that is answered and a UART store behind it. -/
def loadThenStoreTicks : List MmioTick :=
  [together (issue lwPkt 0x10001004 0)] ++ List.replicate 16 (together {}) ++
    [together (issue swPkt 0x10001000 0x41)]

theorem mmio_path_exact_loadThenStore :
    MmioPath.storesSet (loadThenStoreTicks.getD · (together {})) 30 = [⟨true, 0x10001000, 0x41, 0xf⟩] ∧
    MmioPath.answeredTo (loadThenStoreTicks.getD · (together {})) 30 <+:
      MmioPath.performed (loadThenStoreTicks.getD · (together {})) 30 :=
  ⟨by decide +kernel,
    (mmio_path_exact (Machine.respects_getD (by decide +kernel) fun s i hi => by
        obtain rfl : {} = i := Option.some.inj hi
        exact nofun)
      (Machine.respects_getD (by decide +kernel) fun s i hi _ => by
        obtain rfl : {} = i := Option.some.inj hi
        rfl) 30).1⟩

/-- The flush of a mispredicted branch followed by the flush of an interrupt, in consecutive cycles. -/
def flushLower : LsuBusIn := { lsc := { flush := { dc2Up := true, dc3 := true, dc4 := true } } }

/-- A UART load whose request has just reached the bridge is flushed in two consecutive cycles; a UART store
follows. -/
def flushedLoadThenStore : List MmioTick :=
  [together (issue lwPkt 0x10001004 0), together {}, together {}, together flushLower, together flushLower,
    together {}, together (issue swPkt 0x10001000 0x41)]

/-- The store is completed with the answer to the flushed load and never reaches the peripheral. -/
theorem mmio_path_loses_store :
    MmioPath.machine.Respects MmioPath.HonoursStall (flushedLoadThenStore.getD · (together {})) ∧
    MmioPath.storesSet (flushedLoadThenStore.getD · (together {})) 30 = [⟨true, 0x10001000, 0x41, 0xf⟩] ∧
    (MmioPath.machine.run (flushedLoadThenStore.getD · (together {})) 30).lsu.bus.storePending = false ∧
    MmioPath.performed (flushedLoadThenStore.getD · (together {})) 30 =
      [(⟨false, 0x10001004, 0, 0⟩, ⟨0x55, false⟩)] ∧
    MmioPath.answeredTo (flushedLoadThenStore.getD · (together {})) 30 =
      [(⟨true, 0x10001000, 0x41, 0xf⟩, ⟨0x55, false⟩)] := by
  refine ⟨Machine.respects_getD (by decide +kernel) fun s i hi => ?_, ?_⟩
  · obtain rfl : {} = i := Option.some.inj hi
    exact nofun
  · decide +kernel

end SocRV
