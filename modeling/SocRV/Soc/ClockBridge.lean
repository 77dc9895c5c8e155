import SocRV.Lib.Channel

/-!
# The clock bridge between the core and the peripherals

`soc_clock_bridge` carries one MMIO request at a time from the core clock to the peripheral clock and its
answer back.  Each domain keeps its own registers; a request travels as a toggle with the payload beside it
through two synchroniser stages, and the answer travels back the same way.  A tick of the model holds the core
clock edge, the peripheral clock edge, or both at once, and every register samples the values before the tick.
-/

namespace SocRV

/-- The request bus: `core_req_write`, `core_req_addr`, `core_req_wdata` and `core_req_wstrb`. -/
structure Payload where
  write : Bool
  addr : BitVec 32
  wdata : BitVec 32
  wstrb : BitVec 4
  deriving DecidableEq, Repr

/-- The answer bus: `rdata` and `error`. -/
structure Answer where
  rdata : BitVec 32
  error : Bool
  deriving DecidableEq, Repr

/-- The reset value of the payload registers. -/
def Payload.zero : Payload := ⟨false, 0, 0, 0⟩

/-- The reset value of the answer registers. -/
def Answer.zero : Answer := ⟨0, false⟩

/-- The registers of the bridge on `core_clk`. -/
structure BridgeCore where
  reqToggleQ : Bool := false
  reqBusyQ : Bool := false
  reqQ : Payload := .zero
  respToggleMetaQ : Bool := false
  respToggleSyncQ : Bool := false
  respMetaQ : Answer := .zero
  respSyncQ : Answer := .zero
  deriving DecidableEq, Repr

/-- The registers of the bridge on `periph_clk`. -/
structure BridgePeriph where
  reqToggleMetaQ : Bool := false
  reqToggleSyncQ : Bool := false
  reqSeenQ : Bool := false
  reqMetaQ : Payload := .zero
  reqSyncQ : Payload := .zero
  periphActiveQ : Bool := false
  periphReqQ : Payload := .zero
  respToggleQ : Bool := false
  respQ : Answer := .zero
  deriving DecidableEq, Repr

/-- All registers of the bridge; the defaults are the reset values. -/
structure Bridge where
  core : BridgeCore := {}
  periph : BridgePeriph := {}
  deriving DecidableEq, Repr

/-- What the core drives in a core cycle. -/
structure CoreIn where
  valid : Bool
  req : Payload
  deriving DecidableEq, Repr

/-- What the peripheral drives in a peripheral cycle. -/
structure PeriphIn where
  ready : Bool
  resp : Answer
  deriving DecidableEq, Repr

/-- One instant with a clock edge: of the core clock, of the peripheral clock, or of both. -/
structure Tick where
  core : Option CoreIn
  periph : Option PeriphIn
  deriving DecidableEq, Repr

namespace Bridge

/-- The `core_req_ready` output. -/
def coreReqReady (b : Bridge) : Bool :=
  b.core.reqBusyQ && b.core.respToggleSyncQ == b.core.reqToggleQ

/-- The `core_req_rdata` and `core_req_error` outputs. -/
def coreResp (b : Bridge) : Answer := b.core.respSyncQ

/-- A request is taken over into the bridge in this core cycle. -/
def accepts (b : Bridge) (i : CoreIn) : Bool := !b.core.reqBusyQ && i.valid

/-- A request is completed towards the core in this core cycle. -/
def completes (b : Bridge) (i : CoreIn) : Bool := b.core.reqBusyQ && b.coreReqReady && i.valid

/-- `periph_req_valid && periph_req_ready`. -/
def fires (b : Bridge) (i : PeriphIn) : Bool := b.periph.periphActiveQ && i.ready

/-- The core registers after a `core_clk` edge. -/
def coreEdge (b : Bridge) (i : CoreIn) : BridgeCore :=
  let c := { b.core with
    respToggleMetaQ := b.periph.respToggleQ
    respToggleSyncQ := b.core.respToggleMetaQ
    respMetaQ := b.periph.respQ
    respSyncQ := b.core.respMetaQ }
  if b.accepts i then { c with reqQ := i.req, reqToggleQ := !b.core.reqToggleQ, reqBusyQ := true }
  else if b.completes i then { c with reqBusyQ := false }
  else c

/-- The peripheral registers after a `periph_clk` edge. -/
def periphEdge (b : Bridge) (i : PeriphIn) : BridgePeriph :=
  let p := { b.periph with
    reqToggleMetaQ := b.core.reqToggleQ
    reqToggleSyncQ := b.periph.reqToggleMetaQ
    reqMetaQ := b.core.reqQ
    reqSyncQ := b.periph.reqMetaQ }
  if !b.periph.periphActiveQ && b.periph.reqToggleSyncQ != b.periph.reqSeenQ then
    { p with periphReqQ := b.periph.reqSyncQ, periphActiveQ := true }
  else if b.fires i then
    { p with
      respQ := i.resp
      respToggleQ := b.periph.reqToggleSyncQ
      reqSeenQ := b.periph.reqToggleSyncQ
      periphActiveQ := false }
  else p

/-- The registers after a tick. -/
def next (b : Bridge) (t : Tick) : Bridge where
  core := t.core.elim b.core b.coreEdge
  periph := t.periph.elim b.periph b.periphEdge

/-- The payload register takes the request that is accepted. -/
theorem coreEdge_reqQ (b : Bridge) (i : CoreIn) :
    (b.coreEdge i).reqQ = if b.accepts i then i.req else b.core.reqQ := by
  unfold coreEdge
  split_ifs <;> rfl

/-- The busy bit is set by an acceptance and cleared by a completion. -/
theorem coreEdge_reqBusyQ (b : Bridge) (i : CoreIn) :
    (b.coreEdge i).reqBusyQ = if b.accepts i then true else if b.completes i then false else b.core.reqBusyQ := by
  unfold coreEdge
  split_ifs <;> rfl

/-- The bridge from reset. -/
def machine : Machine Bridge Tick := ⟨{}, next⟩

/-! ## The traffic on the two sides -/

/-- The request accepted from the core in a tick. -/
def acceptedAt (b : Bridge) (t : Tick) : List Payload :=
  t.core.elim [] fun i => if b.accepts i then [i.req] else []

/-- The request performed by the peripheral in a tick, with the answer it gave. -/
def firedAt (b : Bridge) (t : Tick) : List (Payload × Answer) :=
  t.periph.elim [] fun i => if b.fires i then [(b.periph.periphReqQ, i.resp)] else []

/-- The request the core presents when it is completed in a tick, with the answer it is given. -/
def completedAt (b : Bridge) (t : Tick) : List (Payload × Answer) :=
  t.core.elim [] fun i => if b.completes i then [(i.req, b.coreResp)] else []

/-- The requests accepted in the first `n` ticks. -/
def accepted (w : Nat → Tick) (n : Nat) : List Payload := machine.events acceptedAt w n

/-- The requests the peripheral performed in the first `n` ticks. -/
def fired (w : Nat → Tick) (n : Nat) : List (Payload × Answer) := machine.events firedAt w n

/-- The requests completed towards the core in the first `n` ticks. -/
def completed (w : Nat → Tick) (n : Nat) : List (Payload × Answer) := machine.events completedAt w n

/-- The core keeps an accepted request and its payload on the bus until it is completed. -/
def CoreHolds (b : Bridge) (t : Tick) : Prop :=
  ∀ i ∈ t.core, b.core.reqBusyQ = true → i.valid = true ∧ i.req = b.core.reqQ

/-- What the core presents while its request is in the bridge is that request; it may pause in between. -/
def CorePresents (b : Bridge) (t : Tick) : Prop :=
  ∀ i ∈ t.core, b.core.reqBusyQ = true → i.valid = true → i.req = b.core.reqQ

/-- A core that holds its request presents it. -/
theorem CoreHolds.presents {b : Bridge} {t : Tick} (h : b.CoreHolds t) : b.CorePresents t :=
  fun i hi hbusy _ => (h i hi hbusy).2

/-! ## The bridge as a one-place channel -/

/-- The channel events of a tick. -/
def eventsAt (b : Bridge) (t : Tick) : List (ChannelEvent Payload Answer) :=
  (b.acceptedAt t).map .accept ++ (b.completedAt t).map (fun r => .complete r.1 r.2) ++
    (b.firedAt t).map fun r => .fire r.1 r.2

/-- The joint invariant of the two domains, by the state of the channel.  In `requested` the toggle and the
payload are on their way to the peripheral; in `answered` the answer is on its way back. -/
def Refines (b : Bridge) : Channel Payload Answer → Prop
  | .idle =>
    b.core.reqBusyQ = false ∧ b.periph.periphActiveQ = false ∧
    b.periph.reqToggleMetaQ = b.core.reqToggleQ ∧ b.periph.reqToggleSyncQ = b.core.reqToggleQ ∧
    b.periph.reqSeenQ = b.core.reqToggleQ ∧ b.periph.respToggleQ = b.core.reqToggleQ ∧
    b.core.respToggleMetaQ = b.core.reqToggleQ ∧ b.core.respToggleSyncQ = b.core.reqToggleQ
  | .requested p =>
    b.core.reqBusyQ = true ∧ b.core.reqQ = p ∧
    b.periph.reqSeenQ = (!b.core.reqToggleQ) ∧ b.periph.respToggleQ = (!b.core.reqToggleQ) ∧
    b.core.respToggleMetaQ = (!b.core.reqToggleQ) ∧ b.core.respToggleSyncQ = (!b.core.reqToggleQ) ∧
    (b.periph.reqToggleMetaQ = b.core.reqToggleQ → b.periph.reqMetaQ = p) ∧
    (b.periph.reqToggleSyncQ = b.core.reqToggleQ →
      b.periph.reqToggleMetaQ = b.core.reqToggleQ ∧ b.periph.reqSyncQ = p) ∧
    (b.periph.periphActiveQ = true →
      b.periph.reqToggleSyncQ = b.core.reqToggleQ ∧ b.periph.periphReqQ = p)
  | .answered p a =>
    b.core.reqBusyQ = true ∧ b.core.reqQ = p ∧ b.periph.periphActiveQ = false ∧
    b.periph.reqToggleMetaQ = b.core.reqToggleQ ∧ b.periph.reqToggleSyncQ = b.core.reqToggleQ ∧
    b.periph.reqSeenQ = b.core.reqToggleQ ∧ b.periph.respToggleQ = b.core.reqToggleQ ∧ b.periph.respQ = a ∧
    (b.core.respToggleMetaQ = b.core.reqToggleQ → b.core.respMetaQ = a) ∧
    (b.core.respToggleSyncQ = b.core.reqToggleQ →
      b.core.respToggleMetaQ = b.core.reqToggleQ ∧ b.core.respSyncQ = a)

theorem refines_reset : machine.reset.Refines .idle :=
  ⟨rfl, rfl, rfl, rfl, rfl, rfl, rfl, rfl⟩

/-- From idle a tick can only accept a request; the peripheral side does not move. -/
theorem refines_next_idle {b : Bridge} {t : Tick} (h : b.Refines .idle) :
    ∃ c, Machine.exec Channel.step .idle (b.eventsAt t) = some c ∧ (b.next t).Refines c := by
  obtain ⟨⟨tg, busy, rq, rtm, rts, rm, rs⟩, ⟨tm, ts, seen, qm, qs, act, pq, rt, rr⟩⟩ := b
  obtain ⟨ci, pi⟩ := t
  simp only [Refines] at h
  obtain ⟨rfl, rfl, rfl, rfl, rfl, rfl, rfl, rfl⟩ := h
  rcases ci with _ | ⟨_ | _, req⟩ <;> rcases pi with _ | ⟨_ | _, resp⟩ <;>
    simp [Refines, eventsAt, acceptedAt, completedAt, firedAt, accepts, completes, fires, next, coreEdge,
      periphEdge, Machine.exec, Channel.step, coreReqReady]

/-- With a request under way a tick moves it one stage further, starts it at the peripheral or performs it. -/
theorem refines_next_requested {b : Bridge} {t : Tick} {p : Payload} (h : b.Refines (.requested p)) :
    ∃ c, Machine.exec Channel.step (.requested p) (b.eventsAt t) = some c ∧ (b.next t).Refines c := by
  obtain ⟨⟨tg, busy, rq, rtm, rts, rm, rs⟩, ⟨tm, ts, seen, qm, qs, act, pq, rt, rr⟩⟩ := b
  obtain ⟨ci, pi⟩ := t
  simp only [Refines] at h
  obtain ⟨rfl, rfl, rfl, rfl, rfl, rfl, hmeta, hsync, hactive⟩ := h
  rcases ci with _ | ⟨_ | _, req⟩ <;> rcases pi with _ | ⟨_ | _, resp⟩ <;> cases act <;>
    simp [Refines, eventsAt, acceptedAt, completedAt, firedAt, accepts, completes, fires, next, coreEdge,
      periphEdge, Machine.exec, Channel.step, coreReqReady] <;>
    grind [Refines, Channel.step, Machine.exec]

/-- With an answer under way a tick moves it one stage further or completes the request with it. -/
theorem refines_next_answered {b : Bridge} {t : Tick} {p : Payload} {a : Answer} (h : b.Refines (.answered p a))
    (hold : b.CorePresents t) :
    ∃ c, Machine.exec Channel.step (.answered p a) (b.eventsAt t) = some c ∧ (b.next t).Refines c := by
  obtain ⟨⟨tg, busy, rq, rtm, rts, rm, rs⟩, ⟨tm, ts, seen, qm, qs, act, pq, rt, rr⟩⟩ := b
  obtain ⟨ci, pi⟩ := t
  simp only [Refines] at h
  obtain ⟨rfl, rfl, rfl, rfl, rfl, rfl, rfl, rfl, hmeta, hsync⟩ := h
  rcases ci with _ | ⟨v, req⟩
  · rcases pi with _ | ⟨_ | _, resp⟩ <;>
      simp_all [Refines, eventsAt, acceptedAt, completedAt, firedAt, fires, next, periphEdge, Machine.exec]
  · have hreq : v = true → req = rq := hold _ rfl rfl
    cases v <;> by_cases hready : rts = rt <;> rcases pi with _ | ⟨_ | _, resp⟩ <;>
      simp_all [Refines, eventsAt, acceptedAt, completedAt, firedAt, accepts, completes, fires, next, coreEdge,
        periphEdge, Machine.exec, Channel.step, coreReqReady, coreResp]

/-- Every tick of the bridge, with a core that presents only its request, is a step of the one-place channel. -/
theorem refines_next {b : Bridge} {t : Tick} {c : Channel Payload Answer} (h : b.Refines c)
    (hold : b.CorePresents t) :
    ∃ c', Machine.exec Channel.step c (b.eventsAt t) = some c' ∧ (b.next t).Refines c' := by
  cases c with
  | idle => exact refines_next_idle h
  | requested p => exact refines_next_requested h
  | answered p a => exact refines_next_answered h hold

/-- In an idle bridge nothing is completed and nothing is performed. -/
theorem idle_traffic {b : Bridge} (h : b.Refines .idle) (t : Tick) :
    b.coreReqReady = false ∧ b.completedAt t = [] ∧ b.firedAt t = [] := by
  obtain ⟨hbusy, hactive, -⟩ := h
  rcases t with ⟨_ | ci, _ | pi⟩ <;> simp [coreReqReady, completedAt, firedAt, completes, fires, hbusy, hactive]

/-- With a request under way nothing else is accepted, nothing is completed, and only that request can be
performed. -/
theorem requested_traffic {b : Bridge} {p : Payload} (h : b.Refines (.requested p)) (t : Tick) :
    b.coreReqReady = false ∧ b.acceptedAt t = [] ∧ b.completedAt t = [] ∧
      (b.firedAt t = [] ∨ ∃ a, b.firedAt t = [(p, a)]) := by
  obtain ⟨hbusy, -, -, -, -, hsync, -, -, hactive⟩ := h
  have hready : b.coreReqReady = false := by simp [coreReqReady, hsync]
  refine ⟨hready, ?_, ?_, ?_⟩
  · cases hc : t.core <;> simp [acceptedAt, accepts, hc, hbusy]
  · cases hc : t.core <;> simp [completedAt, completes, hc, hready]
  · cases hp : t.periph with
    | none => simp [firedAt, hp]
    | some i =>
      cases hf : b.fires i with
      | false => simp [firedAt, hp, hf]
      | true =>
        simp only [fires, Bool.and_eq_true] at hf
        exact .inr ⟨i.resp, by simp [firedAt, hp, fires, hf, (hactive hf.1).2]⟩

/-- With an answer under way nothing else is accepted and nothing is performed. -/
theorem answered_traffic {b : Bridge} {p : Payload} {a : Answer} (h : b.Refines (.answered p a)) (t : Tick) :
    b.acceptedAt t = [] ∧ b.firedAt t = [] := by
  obtain ⟨hbusy, -, hactive, -⟩ := h
  rcases t with ⟨_ | ci, _ | pi⟩ <;> simp [acceptedAt, firedAt, accepts, fires, hbusy, hactive]

/-! ## Whole runs -/

/-- The channel accepts what the bridge accepts. -/
theorem acceptsOf_eventsAt (b : Bridge) (t : Tick) : Channel.acceptsOf (b.eventsAt t) = b.acceptedAt t := by
  simp [Channel.acceptsOf, eventsAt, List.filterMap_map]

theorem firesOf_eventsAt (b : Bridge) (t : Tick) : Channel.firesOf (b.eventsAt t) = b.firedAt t := by
  simp [Channel.firesOf, eventsAt, List.filterMap_map]

theorem completesOf_eventsAt (b : Bridge) (t : Tick) : Channel.completesOf (b.eventsAt t) = b.completedAt t := by
  simp [Channel.completesOf, eventsAt, List.filterMap_map]

/-- The channel events of the first `n` ticks. -/
def channelEvents (w : Nat → Tick) (n : Nat) : List (ChannelEvent Payload Answer) :=
  machine.events eventsAt w n

/-- Over a run the channel accepts what the bridge accepts. -/
@[simp] theorem acceptsOf_channelEvents (w : Nat → Tick) (n : Nat) :
    Channel.acceptsOf (channelEvents w n) = accepted w n := by
  rw [Channel.acceptsOf, channelEvents, Machine.events_filterMap]
  exact congrArg (machine.events · w n) (funext₂ acceptsOf_eventsAt)

@[simp] theorem firesOf_channelEvents (w : Nat → Tick) (n : Nat) :
    Channel.firesOf (channelEvents w n) = fired w n := by
  rw [Channel.firesOf, channelEvents, Machine.events_filterMap]
  exact congrArg (machine.events · w n) (funext₂ firesOf_eventsAt)

@[simp] theorem completesOf_channelEvents (w : Nat → Tick) (n : Nat) :
    Channel.completesOf (channelEvents w n) = completed w n := by
  rw [Channel.completesOf, channelEvents, Machine.events_filterMap]
  exact congrArg (machine.events · w n) (funext₂ completesOf_eventsAt)

/-- In a run with a core that holds its requests, the traffic and the registers agree with one channel state. -/
theorem channel_of_holds {w : Nat → Tick} (hold : machine.Respects CoreHolds w) (n : Nat) :
    ∃ c, Channel.Consistent (channelEvents w n) c ∧ (machine.run w n).Refines c := by
  obtain ⟨c, hexec, href⟩ := Machine.events_simulated (R := Refines) (f := Channel.step)
    (o := eventsAt) refines_reset (fun _ _ _ h hold => refines_next h hold.presents) hold n
  exact ⟨c, Channel.consistent_exec hexec, href⟩

end Bridge

end SocRV
