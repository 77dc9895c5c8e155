import SocRV.Rtos.TickRun

/-!
# Exact ticks

The deadline moves by one period with every tick, and a request of the timer stays until its tick.  Whether a tick comes
too early is decided where the interrupt is taken: the handler takes every interrupt without a software request for the
timer, also one whose request has been taken back already.
-/

namespace SocRV

namespace Tick

open Interleaving

/-- `timer_init_tick` has just returned: its stores are posted, and the time it started from has been read. -/
structure Starts (t₀ : BitVec 64) (s : System) : Prop where
  init : ∃ reg tickHz, timerInitTick reg tickHz t₀ = some (s.vars, s.posted)
  now : t₀ ≤ s.sources.timer.mtime
  ticks : s.ticks = 0
  mode : s.mode = .thread

/-- The ticks of a run are exact. -/
structure Exact (t₀ : BitVec 64) (s₀ : System) (as : List Action) : Prop where
  /-- `rt_tick_increase` is not called before its time. -/
  onTime : ∀ s, Takes System.act s₀ as s .handler → s.mode = .posting [] true →
    t₀.toNat + (s.ticks + 1) * s₀.vars.tickDelta.toNat ≤ s.sources.timer.mtime.toNat
  /-- Outside the handler the deadline is that of the next tick. -/
  deadline : ∀ s, Visits System.act s₀ as s → s.mode = .thread →
    s.vars.nextDeadline.toNat = t₀.toNat + (s.ticks + 1) * s₀.vars.tickDelta.toNat
  /-- Once the time of the next tick has come, it is requested, and no store on its way takes the request back. -/
  kept : ∀ s, Visits System.act s₀ as s → s.mode = .thread →
    t₀.toNat + (s.ticks + 1) * s₀.vars.tickDelta.toNat ≤ s.sources.timer.mtime.toNat → s.settled.timer.timerIrq = true

/-- No interrupt of the run is taken on a request that has been taken back, and the time stays more than a period away
from wrapping. -/
structure Fresh (s₀ : System) (as : List Action) : Prop where
  takes : ∀ s, Takes System.act s₀ as s .take → s.requested = true
  time : ∀ s, Visits System.act s₀ as s → s.sources.timer.mtime.toNat + s₀.vars.tickDelta.toNat < 2 ^ 64

/-- A period is not empty. -/
theorem tickDelta_pos {reg tickHz : BitVec 32} {now : BitVec 64} {v : TimerVars} {ps : List Payload}
    (h : timerInitTick reg tickHz now = some (v, ps)) : 0 < v.tickDelta.toNat := by
  unfold timerInitTick at h
  dsimp only at h
  have hclock : 0 < (socPeripheralClockHz reg).toNat := by
    unfold socPeripheralClockHz
    split
    · rename_i hrange
      rw [Bool.and_eq_true, decide_eq_true_eq, BitVec.le_def] at hrange
      exact Nat.lt_of_lt_of_le (by decide) hrange.1
    · decide
  split at h
  · exact absurd h (by simp)
  · rename_i hrate
    rw [Bool.or_eq_true, not_or, beq_iff_eq, bne_iff_ne, not_not] at hrate
    obtain ⟨hne, hmod⟩ := hrate
    rw [← (Prod.mk.inj (Option.some.inj h)).1]
    dsimp only
    rw [BitVec.toNat_setWidth, BitVec.toNat_udiv, Nat.mod_eq_of_lt (by
      have := Nat.div_le_self (socPeripheralClockHz reg).toNat tickHz.toNat
      have := (socPeripheralClockHz reg).isLt
      omega)]
    have hpos : 0 < tickHz.toNat := Nat.pos_of_ne_zero fun h0 => hne (BitVec.eq_of_toNat_eq h0)
    refine Nat.div_pos (Nat.le_of_dvd hclock (Nat.dvd_of_mod_eq_zero ?_)) hpos
    rw [← BitVec.toNat_umod, hmod]
    rfl

/-- The invariant holds when `timer_init_tick` returns. -/
theorem Starts.inv {t₀ : BitVec 64} {s : System} (h : Starts t₀ s)
    (htime : s.sources.timer.mtime.toNat + s.vars.tickDelta.toNat < 2 ^ 64) : Inv t₀.toNat s.vars.tickDelta.toNat s := by
  obtain ⟨reg, tickHz, hinit⟩ := h.init
  have hnow := h.now
  rw [BitVec.le_def] at hnow
  have hcome : s.toCome = [] := by
    unfold System.toCome
    rw [h.mode]
  have hticking : s.ticking = false := by
    unfold System.ticking
    rw [h.mode]
  unfold timerInitTick at hinit
  dsimp only at hinit
  split at hinit
  · exact absurd hinit (by simp)
  · obtain ⟨hvars, hposted⟩ := Prod.mk.inj (Option.some.inj hinit)
    have hnext : s.vars.nextDeadline = t₀ + s.vars.tickDelta := by rw [← hvars]
    have hstores : s.posted = timerSetCompare s.vars.nextDeadline ++ timerStart true := by rw [← hposted, ← hvars]
    have hfinal : s.final = { regsOf s.sources with mtimecmp := s.vars.nextDeadline, timerCtrl := 0b11 } := by
      unfold System.final
      rw [hcome, List.append_nil, hstores, List.foldl_append, store_setCompare, store_start]
    refine ⟨?_, rfl, by rw [hfinal], by rw [hfinal], ?_, fun hm => ?_, fun ht => ?_⟩
    · intro p hp
      rw [hcome, List.append_nil, hstores, List.mem_append] at hp
      rcases hp with hp | hp
      · exact setsTime_setCompare _ p hp
      · rw [List.mem_singleton.mp hp]
        decide
    · rw [hnext, h.ticks, hticking, BitVec.toNat_add, Nat.mod_eq_of_lt (by omega)]
      simp
    · rw [h.mode] at hm
      exact absurd hm (by simp)
    · exact absurd (hticking.symm.trans ht) Bool.false_ne_true

/-- The ticks are exact in every run in which no interrupt is taken on a request that has been taken back. -/
theorem tick_exact (t₀ : BitVec 64) (s₀ : System) (as : List Action) (hstart : Starts t₀ s₀) (hfresh : Fresh s₀ as) :
    Exact t₀ s₀ as := by
  obtain ⟨reg, tickHz, hinit⟩ := hstart.init
  have hδ := tickDelta_pos hinit
  have hallowed : ∀ s a, Takes System.act s₀ as s a → Allowed s₀.vars.tickDelta.toNat s a := by
    intro s a htake
    refine ⟨hfresh.time s htake.visits, fun ha => ?_⟩
    rw [ha] at htake
    exact hfresh.takes s htake
  have hinv : ∀ s, Visits System.act s₀ as s → Inv t₀.toNat s₀.vars.tickDelta.toNat s := by
    intro s hs
    have hstart' := hstart.inv (hfresh.time s₀ ⟨[], List.nil_prefix, rfl⟩)
    exact visits_invariant hstart' (fun s a s' hI ha => hI.act hδ ha) hallowed hs
  refine ⟨fun s hs hmode => ?_, fun s hs hmode => ?_, fun s hs hmode htime => ?_⟩
  · refine (hinv s hs.visits).due ?_
    unfold System.ticking
    rw [hmode]
  · have hdeadline := (hinv s hs).deadline
    have hticking : s.ticking = false := by
      unfold System.ticking
      rw [hmode]
    rw [hticking] at hdeadline
    exact hdeadline
  · have hI := hinv s hs
    have hcome : s.toCome = [] := by
      unfold System.toCome
      rw [hmode]
    have hticking : s.ticking = false := by
      unfold System.ticking
      rw [hmode]
    have hfinal : s.final = s.posted.foldl TickRegs.store (regsOf s.sources) := by
      unfold System.final
      rw [hcome, List.append_nil]
    have hdeadline := hI.deadline
    have hcompare := hI.compare
    have hcontrol := hI.control
    rw [hticking, Bool.toNat_false, Nat.add_zero] at hdeadline
    rw [hfinal] at hcompare hcontrol
    unfold MachineTimer.timerIrq System.settled TickRegs.atTime
    dsimp only
    rw [hcontrol, hcompare, Bool.and_eq_true, decide_eq_true_eq, BitVec.le_def, hdeadline]
    exact ⟨rfl, htime⟩

/-! ## A tick, and one too many -/

/-- The tick is started with a period of one cycle at time 0. -/
def everyCycle : System where
  sources := {}
  posted := timerSetCompare 1 ++ timerStart true
  vars := ⟨1, 1⟩

/-- The timer requests an interrupt, and the handler ticks. -/
def oneTick : List Action :=
  Action.mask true :: List.replicate 4 (Action.periph true) ++ [Action.core, .core, .take] ++
    List.replicate 5 Action.handler ++ [Action.mret]

theorem tick_exact_oneTick : (Starts 0 everyCycle ∧ Fresh everyCycle oneTick) ∧ Exact 0 everyCycle oneTick := by
  have hstart : Starts 0 everyCycle := ⟨⟨1000000, 1000000, by decide +kernel⟩, by decide, rfl, rfl⟩
  have hfresh : Fresh everyCycle oneTick := by
    constructor
    · intro s hs
      have htakes : ∀ x ∈ steps System.act everyCycle oneTick, x.2 = .take → x.1.requested = true := by
        decide +kernel
      exact htakes (s, .take) hs.mem_steps rfl
    · intro s hs
      have htime : ∀ x ∈ states System.act everyCycle oneTick,
          x.sources.timer.mtime.toNat + everyCycle.vars.tickDelta.toNat < 2 ^ 64 := by
        decide +kernel
      exact htime s hs.mem_states
  exact ⟨⟨hstart, hfresh⟩, tick_exact 0 everyCycle oneTick hstart hfresh⟩

/-- The tick is started with a period of a millisecond. -/
def everyMillisecond : System where
  sources := {}
  posted := timerSetCompare 50000 ++ timerStart true
  vars := ⟨50000, 50000⟩

/-- A thread requests a software interrupt.  The handler takes the request back and returns; the store is still on its
way, so the line is still high and the interrupt is taken again.  This time there is no software request. -/
def staleRun : List Action :=
  [Action.mask true] ++ List.replicate 4 (Action.periph true) ++ [Action.trigger, .periph true, .core, .core] ++
    [Action.take, .handler, .handler, .handler, .mret] ++ [Action.take, .periph true] ++
    List.replicate 5 Action.handler

/-- The software interrupt is followed by a tick, 6 cycles after the start. -/
theorem takes_tick_staleRun : ∃ s, Takes System.act everyMillisecond staleRun s .handler ∧ s.mode = .posting [] true ∧
    s.ticks = 0 ∧ s.sources.timer.mtime = 6 := by
  have hsome : (Machine.exec System.act everyMillisecond staleRun.dropLast).isSome = true := by decide +kernel
  have hlast : ∀ s ∈ Machine.exec System.act everyMillisecond staleRun.dropLast,
      s.mode = .posting [] true ∧ s.ticks = 0 ∧ s.sources.timer.mtime = 6 := by
    decide +kernel
  obtain ⟨s, hs⟩ := Option.isSome_iff_exists.mp hsome
  exact ⟨s, ⟨staleRun.dropLast, by decide, hs⟩, hlast s hs⟩

/-- The first tick comes before its time. -/
theorem tick_early_staleRun : Starts 0 everyMillisecond ∧ ¬ Exact 0 everyMillisecond staleRun := by
  refine ⟨⟨⟨50000000, 1000, by decide +kernel⟩, by decide, rfl, rfl⟩, fun h => ?_⟩
  obtain ⟨s, hs, hmode, hticks, hmtime⟩ := takes_tick_staleRun
  have hdue := h.onTime s hs hmode
  rw [hticks, hmtime] at hdue
  exact absurd hdue (by decide)

end Tick

end SocRV
